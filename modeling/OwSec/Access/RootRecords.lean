import OwSec.Access.UserRuns

/-!
# The `ROOT` records

Two results about runs of requests.  Who is not `ROOT` cannot reach a `ROOT` record, in no
number of steps: `Untouched` is the invariant, and the part of it that carries the
induction is that no user becomes `ROOT` on the way, so that callers who are not `ROOT` at
the start never are.  And whoever the callers are, a `ROOT` record remains: nobody deletes
or demotes themselves, and nobody but a `ROOT` deletes or demotes a `ROOT`, so the caller of
such a request is a `ROOT` that stays.
-/

namespace OwSec

open SecurityObjects Kit RestApi ACLProcessor

/-- The identifier is that of a `ROOT` record. -/
def IsRootId (s : Storage) (id : String) : Prop :=
  ∃ u, s.user.users.find? id = some u ∧ u.userRole = .ROOT

/-- The request is made by a service, on the internal router. -/
def Call.ByService (c : Call) : Prop := c.internal = true ∧ c.request.internalName.isSome = true

/-- The caller is a service, or not among the `ROOT` records of `s₀`. -/
def NonRootCaller (svc : Service) (s₀ s : Storage) : UserEvent → Prop
  | .call c => c.ByService ∨ ∀ u ∈ c.caller svc s, ¬ IsRootId s₀ u.id
  | .elsewhere => True

/-- Since `s₀`, nobody has become `ROOT`, the `ROOT` records have stayed as they were, and no
action link for them has been stored. -/
structure Untouched (s₀ s : Storage) : Prop where
  coherent : s.user.Coherent
  isRootId : ∀ id, IsRootId s id → IsRootId s₀ id
  rows : ∀ id u, s₀.user.users.find? id = some u → u.userRole = .ROOT →
    s.user.users.find? id = some u
  links : ∀ l ∈ s.actionLinks.rows, l ∈ s₀.actionLinks.rows ∨ ¬ IsRootId s₀ l.userId

theorem Untouched.refl {s : Storage} (h : s.user.Coherent) : Untouched s s :=
  ⟨h, fun _ h ↦ h, fun _ _ hu _ ↦ hu, fun _ hl ↦ .inl hl⟩

section Untouched

variable {svc : Service} {s₀ s s' : Storage} {e : UserEvent}

/-- What a step leaves untouched, in terms of the record that it changes. -/
theorem Untouched.update {id : String} {o : Option UserInfo} {about : Option String}
    (h : Untouched s₀ s) (hat : At (Function.update s.user.users.find? id o) about s s')
    (hid : ¬ IsRootId s₀ id) (ho : ∀ u, o = some u → u.userRole ≠ .ROOT)
    (habout : about = none ∨ about = some id) : Untouched s₀ s' where
  coherent := hat.coherent
  isRootId := by
    rintro k ⟨u, hu, hroot⟩
    rw [hat.users, Function.update_apply] at hu
    split at hu
    · exact absurd hroot (ho u hu)
    · exact h.isRootId k ⟨u, hu, hroot⟩
  rows := by
    intro k u hu hroot
    rw [hat.users, Function.update_apply, if_neg ?_]
    · exact h.rows k u hu hroot
    · rintro rfl
      exact hid ⟨u, hu, hroot⟩
  links := by
    intro l hl
    rcases hat.links l hl with hold | hnew
    · exact h.links l hold
    · rcases habout with ha | ha <;> rw [ha] at hnew
      · cases hnew
      · rw [Option.some.inj hnew] at hid
        exact .inr hid

/-- A step of a caller who was not `ROOT` at the start leaves the `ROOT` records untouched. -/
theorem Untouched.step (h : Untouched s₀ s) (hstep : UserStep svc s e s')
    (hcaller : NonRootCaller svc s₀ s e) : Untouched s₀ s' := by
  obtain ⟨table, about, hchange, hat⟩ := hstep.change h.coherent
  have hunchanged (hat : At s.user.users.find? none s s') : Untouched s₀ s' := by
    refine ⟨hat.coherent, fun id hid ↦ h.isRootId id ?_, fun id u hu hroot ↦ ?_, fun l hl ↦ ?_⟩
    · obtain ⟨u, hu, hroot⟩ := hid
      exact ⟨u, hat.users ▸ hu, hroot⟩
    · rw [hat.users]
      exact h.rows id u hu hroot
    · rcases hat.links l hl with hold | hnew
      · exact h.links l hold
      · cases hnew
  -- a record that is not `ROOT` now was not `ROOT` at the start
  have hnotRoot {id : String} {u : UserInfo} (hu : s.user.users.find? id = some u)
      (hrole : u.userRole ≠ .ROOT) : ¬ IsRootId s₀ id := by
    rintro ⟨r, hr, hroot⟩
    obtain rfl := Option.some.inj ((h.rows id r hr hroot).symm.trans hu)
    exact hrole hroot
  cases hchange with
  | unchanged => exact hunchanged hat
  | effect call c row hrequest hmoment hlist hpublic hc hrow hsame heffect =>
    have hbelow : c.caller.userRole ≠ .ROOT := by
      intro hroot
      rcases hcaller with ⟨hinternal, -⟩ | hcaller
      · exact absurd (hpublic.symm.trans hinternal) Bool.false_ne_true
      · refine hcaller c.caller hc (h.isRootId _ ⟨row, hrow, ?_⟩)
        rw [← hroot]
        exact (hsame.eq UserInfo.userRole fun _ _ ↦ rfl).symm
    cases heffect with
    | unchanged => exact hunchanged hat
    | deleted target htarget hid hm hcan =>
      obtain ⟨-, hroot | ⟨-, -, hrole⟩⟩ := of_canDeleteUserRecord hcan
      · exact absurd hroot hbelow
      · exact h.update hat (hnotRoot htarget hrole) (by simp) (.inl rfl)
    | created new hfresh hm hcan hid hcreator hemail hvalid about habout =>
      obtain ⟨-, hrole, -⟩ := of_canCreateUserRecord hbelow hcan
      refine h.update hat ?_ ?_ habout
      · rintro ⟨r, hr, hroot⟩
        rw [h.rows _ r hr hroot] at hfresh
        cases hfresh
      · rintro u hu
        obtain rfl := Option.some.inj hu
        exact hrole
    | written target new htarget hid hm hcan hnew about habout =>
      obtain ⟨hrole, -⟩ := of_canModifyUserRecord hbelow hcan
      refine h.update hat (hnotRoot htarget hrole) ?_ habout
      rintro u hu
      obtain rfl := Option.some.inj hu
      rcases hnew.userRole with hkept | ⟨-, hchanges⟩
      · rw [hkept]
        exact hrole
      · obtain ⟨-, hroot | ⟨-, hnonroot, -⟩⟩ := of_canChangeUserRole hchanges
        · exact absurd hroot hbelow
        · exact hnonroot

/-- Over any run of requests whose callers are services or users who are not `ROOT` at the
start, the `ROOT` records of the start are still there as they were, and no action link has
been stored for them. -/
theorem root_records_untouched (hs : (userSystem svc).init s)
    (h : ((userSystem svc).restrict (NonRootCaller svc s)).Run s s') :
    (∀ id u, s.user.users.find? id = some u → u.userRole = .ROOT →
      s'.user.users.find? id = some u) ∧
    ∀ l ∈ s'.actionLinks.rows, l ∈ s.actionLinks.rows ∨ ¬ IsRootId s l.userId := by
  have hinv : Untouched s s' :=
    h.invariant (fun _ _ _ hx hstep ↦ hx.step hstep.1 hstep.2) (Untouched.refl hs)
  exact ⟨hinv.rows, hinv.links⟩

end Untouched

/-- An `ADMIN` tries to delete a `ROOT`. -/
def sampleAttack : Call := sampleCall "a" "admin" "root" .DELETE

/-- The attempt leaves the `ROOT` records untouched. -/
theorem root_records_untouched_sample :
    (∀ id u, sampleStaff.user.users.find? id = some u → u.userRole = .ROOT →
      (sampleAttack.run .sample sampleStaff).2.user.users.find? id = some u) ∧
    ∀ l ∈ (sampleAttack.run .sample sampleStaff).2.actionLinks.rows,
      l ∈ sampleStaff.actionLinks.rows ∨ ¬ IsRootId sampleStaff l.userId := by
  have hallowed : System.Allowed (fun s c ↦ NonRootCaller .sample sampleStaff s (.call c))
      (fun s (c : Call) ↦ (c.run .sample s).2) sampleStaff [sampleAttack] := by
    refine ⟨.inr fun u hu ↦ ?_, trivial⟩
    have hcaller : sampleAttack.caller .sample sampleStaff = some (sampleUser "admin" .ADMIN) := by
      decide
    obtain rfl := Option.some.inj (hcaller.symm.trans hu)
    rintro ⟨r, hr, hroot⟩
    have hrow : sampleStaff.user.users.find? "admin" = some (sampleUser "admin" .ADMIN) := by decide
    obtain rfl := Option.some.inj (hrow.symm.trans hr)
    cases hroot
  exact root_records_untouched (Population.Coherent.of_empty rfl)
    (run_of_calls sampleStaff [sampleAttack] hallowed)

section Remaining

variable {svc : Service} {s s' : Storage} {e : UserEvent}

/-- A step keeps a `ROOT` record: the one that was there, or that of the caller. -/
theorem exists_isRootId_of_step (hs : s.user.Coherent) (h : UserStep svc s e s')
    (hroot : ∃ id, IsRootId s id) : ∃ id, IsRootId s' id := by
  obtain ⟨id, u, hu, hrole⟩ := hroot
  obtain ⟨table, about, hchange, hat⟩ := h.change hs
  unfold IsRootId
  rw [hat.users]
  cases hchange with
  | unchanged => exact ⟨id, u, hu, hrole⟩
  | effect call c row hrequest hmoment hlist hpublic hc hrow hsame heffect =>
    -- a `ROOT` caller whose own record is not the one that changes is the witness
    have hcallerStays {target : String} {o : Option UserInfo} (hother : c.caller.id ≠ target)
        (hcaller : c.caller.userRole = .ROOT) : ∃ id u,
        Function.update s.user.users.find? target o id = some u ∧ u.userRole = .ROOT := by
      refine ⟨c.caller.id, row, ?_, ?_⟩
      · rw [Function.update_of_ne hother]
        exact hrow
      · rw [← hcaller]
        exact (hsame.eq UserInfo.userRole fun _ _ ↦ rfl).symm
    cases heffect with
    | unchanged => exact ⟨id, u, hu, hrole⟩
    | deleted target htarget hid hm hcan =>
      obtain ⟨hother, hcaller | ⟨-, -, hnonroot⟩⟩ := of_canDeleteUserRecord hcan
      · exact hcallerStays hother hcaller
      · refine ⟨id, u, ?_, hrole⟩
        rw [Function.update_of_ne ?_]
        · exact hu
        · rintro rfl
          obtain rfl := Option.some.inj (hu.symm.trans htarget)
          exact hnonroot hrole
    | created new hfresh hm hcan hid hcreator hemail hvalid about habout =>
      refine ⟨id, u, ?_, hrole⟩
      rw [Function.update_of_ne ?_]
      · exact hu
      · rintro rfl
        rw [hfresh] at hu
        cases hu
    | written target new htarget hid hm hcan hnew about habout =>
      by_cases hk : id = target.id
      · subst hk
        obtain rfl := Option.some.inj (hu.symm.trans htarget)
        rcases hnew.userRole with hkept | ⟨-, hchanges⟩
        · exact ⟨u.id, new, Function.update_self _ _ _, hkept.trans hrole⟩
        · obtain ⟨hother, hcaller | ⟨-, -, hnonroot, -⟩⟩ := of_canChangeUserRole hchanges
          · exact hcallerStays hother hcaller
          · exact absurd hrole hnonroot
      · refine ⟨id, u, ?_, hrole⟩
        rw [Function.update_of_ne hk]
        exact hu

/-- Whatever requests are made by whomever, a table that has a `ROOT` record keeps one. -/
theorem exists_isRootId_of_run (hs : (userSystem svc).init s) (hroot : ∃ id, IsRootId s id)
    (h : (userSystem svc).Run s s') : ∃ id, IsRootId s' id := by
  have hinv : s'.user.Coherent ∧ ∃ id, IsRootId s' id := by
    refine h.invariant (I := fun x ↦ x.user.Coherent ∧ ∃ id, IsRootId x id)
      (fun x e x' hx hstep ↦ ?_) ⟨hs, hroot⟩
    exact ⟨UserStep.coherent hx.1 hstep, exists_isRootId_of_step hx.1 hstep hx.2⟩
  exact hinv.2

end Remaining

/-- One `ROOT` deletes the other. -/
def sampleRivalry : Call := sampleCall "a" "boss" "root" .DELETE

/-- One of the two is left. -/
theorem exists_isRootId_of_run_sample :
    ∃ id, IsRootId (sampleRivalry.run .sample sampleStaff).2 id := by
  have hroot : IsRootId sampleStaff "root" := ⟨sampleUser "root" .ROOT, by decide, rfl⟩
  exact exists_isRootId_of_run (Population.Coherent.of_empty rfl) ⟨"root", hroot⟩
    (.single ⟨.call sampleRivalry, .call sampleRivalry⟩)

example : (sampleRivalry.run .sample sampleStaff).2.user.users.rows.map UserInfo.id =
    ["boss", "admin"] := by decide

end OwSec
