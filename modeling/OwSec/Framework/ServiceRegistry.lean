import Mathlib.Data.List.Induction
import Mathlib.Data.List.Nodup
import OwSec.Service

/-!
# The registry of services

`MicroService::BusMessageReceived` and `MicroService::GetServices` (`framework/MicroService.cpp`).
Each service announces itself on the bus, again and again while it runs, and says when it leaves;
every message, whatever it says, is followed by a sweep that drops the services that have been
silent for more than two minutes.

The registry is compared with the bus itself: after any messages it holds what the last notice of
each end point said, as long as that notice is recent enough.
-/

namespace OwSec

/-- `Types::MicroServiceMeta`. -/
structure MicroServiceMeta where
  id : ℕ := 0
  type : String := ""
  privateEndPoint : String := ""
  publicEndPoint : String := ""
  accessKey : String := ""
  version : String := ""
  lastUpdate : ℕ := 0
deriving DecidableEq, Repr

/-- `Types::MicroServiceMetaMap`, in the order of its keys. -/
abbrev MicroServiceMetaMap := Std.TreeMap String MicroServiceMeta

/-! ## Messages -/

namespace ServiceEvents

/-- `KafkaTopics::ServiceEvents::EVENT_JOIN`. -/
def EVENT_JOIN : String := "join"

/-- `KafkaTopics::ServiceEvents::EVENT_LEAVE`. -/
def EVENT_LEAVE : String := "leave"

/-- `KafkaTopics::ServiceEvents::EVENT_KEEP_ALIVE`. -/
def EVENT_KEEP_ALIVE : String := "keep-alive"

namespace Fields

def EVENT : String := "event"
def ID : String := "id"
def TYPE : String := "type"
def PUBLIC : String := "publicEndPoint"
def PRIVATE : String := "privateEndPoint"
def KEY : String := "key"
def VRSN : String := "version"

/-- What an announcement must have beside its identifier and its event. -/
def announced : List String := [TYPE, PUBLIC, PRIVATE, VRSN, KEY]

end Fields

end ServiceEvents

open ServiceEvents

namespace JsonObject

variable (lib : JsonLibrary) (o : JsonObject)

/-- `Object->get(field).toString()`. -/
def text (field : String) : Option String := (o.get? field).bind lib.varToString

/-- `Object->get(field)` where a number is expected. -/
def number (field : String) : Option ℕ := (o.get? field).bind lib.varToUInt64

end JsonObject

/-- A message as it arrives.  The clock is read when an announcement is taken down, and again
for the sweep. -/
structure Delivery where
  payload : String
  received : ℕ
  swept : ℕ
  received_le : received ≤ swept
  swept_lt : swept < 2 ^ 64

/-! ## The code -/

namespace MicroService

variable (lib : JsonLibrary) (ownId : ℕ)

/-- The event is one that a service sends about itself. -/
def isAnnouncement (event : String) : Bool :=
  event == EVENT_JOIN || event == EVENT_KEEP_ALIVE || event == EVENT_LEAVE

/-- `BusMessageReceived` up to the sweep; `none` is a raised exception. -/
def handleEvent (o : JsonObject) (received : ℕ) (services : MicroServiceMetaMap) :
    Option MicroServiceMetaMap :=
  if o.has Fields.ID && o.has Fields.EVENT then do
    let id ← o.number lib Fields.ID
    let event ← o.text lib Fields.EVENT
    if id = ownId then return services
    else if !isAnnouncement event then
      -- a `remove-token` event concerns the token cache of the other services only
      return services
    else if !Fields.announced.all o.has then return services
    else
      let privateEndPoint ← o.text lib Fields.PRIVATE
      if event == EVENT_LEAVE then return services.erase privateEndPoint
      else
        let type ← o.text lib Fields.TYPE
        let publicEndPoint ← o.text lib Fields.PUBLIC
        let accessKey ← o.text lib Fields.KEY
        let version ← o.text lib Fields.VRSN
        let serviceInfo : MicroServiceMeta :=
          { id, type := toLower type, privateEndPoint, publicEndPoint, accessKey, version,
            lastUpdate := received }
        return services.insert privateEndPoint serviceInfo
  else return services

/-- The service has been silent for too long. -/
def isZombie (now : ℕ) (m : MicroServiceMeta) : Bool :=
  120 < u64 (now + 2 ^ 64 - m.lastUpdate)

/-- The loop that erases while it goes through the services. -/
def sweepFrom (now : ℕ) :
    List (String × MicroServiceMeta) → MicroServiceMetaMap → MicroServiceMetaMap
  | [], services => services
  | (endPoint, m) :: rest, services =>
    if isZombie now m then sweepFrom now rest (services.erase endPoint)
    else sweepFrom now rest services

def sweep (now : ℕ) (services : MicroServiceMetaMap) : MicroServiceMetaMap :=
  sweepFrom now services.toList services

/-- `MicroService::BusMessageReceived`: an exception skips the sweep. -/
def busMessageReceived (services : MicroServiceMetaMap) (d : Delivery) : MicroServiceMetaMap :=
  match lib.parse d.payload with
  | some (.obj o) =>
    match handleEvent lib ownId o d.received services with
    | some services' => sweep d.swept services'
    | none => services
  | _ => services

/-- The services after the messages. -/
def services (log : List Delivery) : MicroServiceMetaMap :=
  log.foldl (busMessageReceived lib ownId) ∅

/-- `MicroService::GetServices(Type)`. -/
def getServices (services : MicroServiceMetaMap) (type : String) : List MicroServiceMeta :=
  (services.toList.map Prod.snd).filter fun m ↦ m.type == toLower type

end MicroService

/-! ## What the bus says -/

/-- What a service says about itself. -/
inductive Notice where
  | present (m : MicroServiceMeta)
  | gone (endPoint : String)

namespace Notice

/-- The private end point of the service. -/
def endPoint : Notice → String
  | present m => m.privateEndPoint
  | gone p => p

/-- What the service says to be. -/
def metadata : Notice → Option MicroServiceMeta
  | present m => some m
  | gone _ => none

end Notice

/-- The join, keep-alive or leave of another service, with all its fields. -/
def JsonObject.notice (lib : JsonLibrary) (ownId : ℕ) (o : JsonObject) (received : ℕ) :
    Option Notice := do
  let id ← o.number lib Fields.ID
  let event ← o.text lib Fields.EVENT
  let type ← o.text lib Fields.TYPE
  let publicEndPoint ← o.text lib Fields.PUBLIC
  let privateEndPoint ← o.text lib Fields.PRIVATE
  let version ← o.text lib Fields.VRSN
  let accessKey ← o.text lib Fields.KEY
  if id = ownId then none
  else if event = EVENT_LEAVE then some (.gone privateEndPoint)
  else if event = EVENT_JOIN ∨ event = EVENT_KEEP_ALIVE then
    some (.present
      { id, type := toLower type, privateEndPoint, publicEndPoint, accessKey, version,
        lastUpdate := received })
  else none

namespace Delivery

variable (lib : JsonLibrary) (ownId : ℕ) (d : Delivery)

/-- The payload is an object whose fields have the types they should have. -/
def WellFormed : Prop :=
  ∃ o : JsonObject, lib.parse d.payload = some (.obj o) ∧
    (o.has Fields.ID → (o.number lib Fields.ID).isSome) ∧
    ∀ field ∈ Fields.EVENT :: Fields.announced, o.has field → (o.text lib field).isSome

/-- What the payload says. -/
def notice : Option Notice :=
  match lib.parse d.payload with
  | some (.obj o) => JsonObject.notice lib ownId o d.received
  | _ => none

end Delivery

/-- No message is received before the ones before it have been handled. -/
def Chronological (log : List Delivery) : Prop := log.Pairwise fun d e ↦ d.swept ≤ e.received

namespace MicroService

variable (lib : JsonLibrary) (ownId : ℕ)

/-- The last notice of an end point. -/
def lastNotice (p : String) (log : List Delivery) : Option Notice :=
  (log.filterMap (Delivery.notice lib ownId)).reverse.find? fun n ↦ n.endPoint = p

/-- A registry that holds what the last notices say, as far as they are recent. -/
structure Exact (log : List Delivery) (now : ℕ) (services : MicroServiceMetaMap) : Prop where
  /-- An end point is registered as its last notice says. -/
  registered : ∀ p m, services[p]? = some m ↔
    lastNotice lib ownId p log = some (.present m) ∧ now ≤ m.lastUpdate + 120
  /-- The services of a type are those registered under it in any case. -/
  listed : ∀ type m, m ∈ getServices services type ↔
    (∃ p : String, services[p]? = some m) ∧ toLower m.type = toLower type
  /-- Each is listed once. -/
  once : ∀ type, (getServices services type).Nodup

/-! ### The sweep -/

section Sweep

variable {now : ℕ} {services : MicroServiceMetaMap}

/-- As long as the clock does not go back, the subtraction does not wrap. -/
theorem isZombie_iff {m : MicroServiceMeta} (hm : m.lastUpdate ≤ now) (hnow : now < 2 ^ 64) :
    isZombie now m = true ↔ m.lastUpdate + 120 < now := by
  rw [isZombie, u64_age hm hnow, decide_eq_true_iff]
  omega

/-- The loop removes the zombies among the services that it goes through. -/
theorem getElem?_sweepFrom (p : String) (rest : List (String × MicroServiceMeta)) :
    (sweepFrom now rest services)[p]? =
      if rest.any (fun e ↦ e.1 = p && isZombie now e.2) then none else services[p]? := by
  induction rest generalizing services with
  | nil => simp [sweepFrom]
  | cons entry rest ih =>
    obtain ⟨q, m⟩ := entry
    rw [sweepFrom, List.any_cons]
    by_cases hm : isZombie now m
    · rw [if_pos hm, ih, Std.TreeMap.getElem?_erase, hm, Bool.and_true]
      by_cases hq : q = p
      · simp [hq]
      · rw [decide_eq_false hq, Bool.false_or]
        simp [hq]
    · rw [if_neg hm, ih, eq_false_of_ne_true hm, Bool.and_false, Bool.false_or]

/-- The sweep keeps exactly what is no zombie. -/
theorem getElem?_sweep (p : String) :
    (sweep now services)[p]? = services[p]?.filter fun m ↦ !isZombie now m := by
  rw [sweep, getElem?_sweepFrom]
  rcases hfound : services[p]? with _ | m
  · simp
  · have hany : services.toList.any (fun e ↦ e.1 = p && isZombie now e.2) = isZombie now m := by
      rw [Bool.eq_iff_iff, List.any_eq_true]
      constructor
      · rintro ⟨⟨q, m'⟩, hmem, hzombie⟩
        obtain ⟨hq, hm'⟩ : q = p ∧ isZombie now m' := by simpa using hzombie
        rw [Std.TreeMap.mem_toList_iff_getElem?_eq_some, hq, hfound] at hmem
        cases hmem
        exact hm'
      · intro hzombie
        exact ⟨(p, m), Std.TreeMap.mem_toList_iff_getElem?_eq_some.mpr hfound, by simp [hzombie]⟩
    rw [hany]
    cases hm : isZombie now m <;> simp [Option.filter, hm]

end Sweep

/-! ### One message -/

section Message

variable {lib ownId}

/-- What a notice does to the registry. -/
def applyNotice (services : MicroServiceMetaMap) : Option Notice → MicroServiceMetaMap
  | some (.present m) => services.insert m.privateEndPoint m
  | some (.gone p) => services.erase p
  | none => services

/-- A field that is not there is not read. -/
theorem get?_of_not_has {o : JsonObject} {field : String} (h : o.has field = false) :
    o.get? field = none := by
  unfold JsonObject.has at h
  unfold JsonObject.get?
  rw [List.any_eq_false] at h
  rw [List.find?_eq_none.mpr h]
  rfl

/-- A message without one of the fields is no notice. -/
theorem notice_of_unread {o : JsonObject} (received : ℕ) {field : String}
    (hfield : field ∈ Fields.EVENT :: Fields.announced) (h : o.text lib field = none) :
    o.notice lib ownId received = none := by
  have hbind {α β : Type} (x : Option α) : (x.bind fun _ ↦ (none : Option β)) = none := by
    cases x <;> rfl
  unfold JsonObject.notice
  simp only [Fields.announced, List.mem_cons, List.not_mem_nil, or_false] at hfield
  rcases hfield with rfl | rfl | rfl | rfl | rfl | rfl <;>
    simp only [h, Option.bind_eq_bind, Option.bind_none, hbind]

/-- The handler does what the notice says, and nothing for a message without one. -/
theorem handleEvent_eq {o : JsonObject} (received : ℕ) (services : MicroServiceMetaMap)
    (hid : o.has Fields.ID → (o.number lib Fields.ID).isSome)
    (htext : ∀ field ∈ Fields.EVENT :: Fields.announced,
      o.has field → (o.text lib field).isSome) :
    handleEvent lib ownId o received services =
      some (applyNotice services (o.notice lib ownId received)) := by
  have hunread {field : String} (hfield : field ∈ Fields.EVENT :: Fields.announced)
      (h : ¬ o.has field) : o.notice lib ownId received = none := by
    refine notice_of_unread received hfield ?_
    rw [JsonObject.text, get?_of_not_has (eq_false_of_ne_true h)]
    rfl
  have hread {field : String} (hfield : field ∈ Fields.EVENT :: Fields.announced)
      (hhas : o.has field) : ∃ text, o.text lib field = some text :=
    Option.isSome_iff_exists.mp (htext field hfield hhas)
  unfold handleEvent
  by_cases hhasId : o.has Fields.ID
  swap
  · have hnone : o.notice lib ownId received = none := by
      rw [JsonObject.notice, JsonObject.number, get?_of_not_has (eq_false_of_ne_true hhasId)]
      rfl
    rw [hnone, eq_false_of_ne_true hhasId]
    rfl
  by_cases hhasEvent : o.has Fields.EVENT
  swap
  · rw [hunread (by simp) hhasEvent, eq_false_of_ne_true hhasEvent, Bool.and_false]
    rfl
  obtain ⟨id, hid⟩ := Option.isSome_iff_exists.mp (hid hhasId)
  obtain ⟨event, hevent⟩ := hread (by simp) hhasEvent
  rw [hhasId, hhasEvent, Bool.and_true, if_pos rfl, hid, hevent]
  simp only [Option.bind_eq_bind, Option.bind_some]
  by_cases hall : Fields.announced.all o.has
  swap
  · obtain ⟨field, hfield, hmissing⟩ := List.all_eq_false.mp (eq_false_of_ne_true hall)
    rw [hunread (List.mem_cons_of_mem _ hfield) hmissing, eq_false_of_ne_true hall]
    simp [applyNotice]
  have hfields (field : String) (hfield : field ∈ Fields.announced) :
      ∃ text, o.text lib field = some text :=
    hread (List.mem_cons_of_mem _ hfield) (List.all_eq_true.mp hall field hfield)
  obtain ⟨type, htype⟩ := hfields Fields.TYPE (by simp [Fields.announced])
  obtain ⟨publicEndPoint, hpublic⟩ := hfields Fields.PUBLIC (by simp [Fields.announced])
  obtain ⟨privateEndPoint, hprivate⟩ := hfields Fields.PRIVATE (by simp [Fields.announced])
  obtain ⟨version, hversion⟩ := hfields Fields.VRSN (by simp [Fields.announced])
  obtain ⟨accessKey, hkey⟩ := hfields Fields.KEY (by simp [Fields.announced])
  unfold JsonObject.notice
  simp only [hid, hevent, htype, hpublic, hprivate, hversion, hkey, hall, Option.bind_eq_bind,
    Option.bind_some, Bool.not_true, Bool.false_eq_true, if_false]
  by_cases hown : id = ownId
  · simp [hown, applyNotice]
  · simp only [hown, if_false]
    by_cases hleave : event = EVENT_LEAVE
    · simp [hleave, isAnnouncement, applyNotice]
    · by_cases hpresent : event = EVENT_JOIN ∨ event = EVENT_KEEP_ALIVE
      · have hkind : isAnnouncement event = true := by
          rcases hpresent with rfl | rfl <;> rfl
        simp [hleave, hpresent, hkind, applyNotice]
      · have hkind : isAnnouncement event = false := by
          obtain ⟨hjoin, halive⟩ := not_or.mp hpresent
          simp [isAnnouncement, hjoin, halive, hleave]
        simp [hpresent, hkind, hleave, applyNotice]

/-- A well-formed message is applied and followed by the sweep. -/
theorem busMessageReceived_eq {d : Delivery} (services : MicroServiceMetaMap)
    (h : d.WellFormed lib) :
    busMessageReceived lib ownId services d =
      sweep d.swept (applyNotice services (d.notice lib ownId)) := by
  obtain ⟨o, hparse, hid, htext⟩ := h
  have hhandled : handleEvent lib ownId o d.received services =
      some (applyNotice services (o.notice lib ownId d.received)) :=
    handleEvent_eq d.received services hid htext
  unfold busMessageReceived Delivery.notice
  rw [hparse]
  simp only [hhandled]

/-- What is registered after a notice. -/
theorem getElem?_applyNotice (services : MicroServiceMetaMap) (n : Option Notice) (p : String) :
    (applyNotice services n)[p]? =
      match n.filter fun n ↦ n.endPoint = p with
      | some n => n.metadata
      | none => services[p]? := by
  rcases n with _ | ⟨m⟩ | ⟨q⟩
  · rfl
  · by_cases hp : m.privateEndPoint = p
    · simp [applyNotice, Notice.endPoint, Notice.metadata, Option.filter, hp]
    · simp [applyNotice, Notice.endPoint, Option.filter, hp, Std.TreeMap.getElem?_insert]
  · by_cases hp : q = p
    · simp [applyNotice, Notice.endPoint, Notice.metadata, Option.filter, hp]
    · simp [applyNotice, Notice.endPoint, Option.filter, hp, Std.TreeMap.getElem?_erase]

/-- A notice that says that a service is there was received with the message and has the type in
lower case. -/
theorem notice_present {d : Delivery} {m : MicroServiceMeta}
    (h : d.notice lib ownId = some (.present m)) :
    m.lastUpdate = d.received ∧ toLower m.type = m.type := by
  unfold Delivery.notice at h
  split at h
  · unfold JsonObject.notice at h
    simp only [Option.bind_eq_bind, Option.bind_eq_some_iff] at h
    obtain ⟨id, -, event, -, type, -, publicEndPoint, -, privateEndPoint, -, version, -,
      accessKey, -, h⟩ := h
    split at h
    · cases h
    · split at h
      · cases h
      · split at h
        · cases h
          exact ⟨rfl, toLower_toLower type⟩
        · cases h
  · cases h

end Message

/-! ### Any messages -/

section Messages

variable {lib ownId}

theorem lastNotice_append (p : String) (log : List Delivery) (d : Delivery) :
    lastNotice lib ownId p (log ++ [d]) =
      ((d.notice lib ownId).filter fun n ↦ n.endPoint = p).or (lastNotice lib ownId p log) := by
  unfold lastNotice
  rw [List.filterMap_append, List.reverse_append, List.find?_append]
  congr 1
  rcases hd : d.notice lib ownId with _ | n
  · simp [hd]
  · by_cases hp : n.endPoint = p <;> simp [hd, Option.filter, hp]

/-- The last notice of an end point is the notice of some message. -/
theorem exists_of_lastNotice {p : String} {log : List Delivery} {n : Notice}
    (h : lastNotice lib ownId p log = some n) :
    n.endPoint = p ∧ ∃ d ∈ log, d.notice lib ownId = some n := by
  have hmem := List.mem_of_find?_eq_some h
  rw [List.mem_reverse, List.mem_filterMap] at hmem
  exact ⟨by simpa using List.find?_some h, hmem⟩

/-- When the last of the messages was swept. -/
def lastSweep (log : List Delivery) : ℕ := (log.getLast?.map Delivery.swept).getD 0

theorem lastSweep_append (log : List Delivery) (d : Delivery) :
    lastSweep (log ++ [d]) = d.swept := by
  simp [lastSweep]

/-- The last sweep comes after every message and before every later one. -/
theorem le_lastSweep {log : List Delivery} (hclock : Chronological log) :
    ∀ e ∈ log, e.received ≤ lastSweep log := by
  intro e he
  rcases log.eq_nil_or_concat with rfl | ⟨log, d, rfl⟩
  · cases he
  · rw [List.concat_eq_append] at he hclock ⊢
    rw [lastSweep_append]
    rcases List.mem_append.mp he with he | he
    · have hbefore := (List.pairwise_append.mp hclock).2.2 e he d (List.mem_singleton_self d)
      exact Nat.le_trans e.received_le (Nat.le_trans hbefore d.received_le)
    · rw [List.mem_singleton.mp he]
      exact d.received_le

theorem lastSweep_le {log : List Delivery} {d : Delivery} (hclock : Chronological (log ++ [d])) :
    lastSweep log ≤ d.received := by
  rcases log.eq_nil_or_concat with rfl | ⟨log, e, rfl⟩
  · exact Nat.zero_le _
  · rw [List.concat_eq_append] at hclock ⊢
    rw [lastSweep_append]
    exact (List.pairwise_append.mp hclock).2.2 e (by simp) d (List.mem_singleton_self d)

/-- What is registered is what the last notices say, as long as they are recent: by induction on
the messages, the last one first. -/
theorem getElem?_services {log : List Delivery} (hlog : ∀ e ∈ log, e.WellFormed lib)
    (hclock : Chronological log) (p : String) (m : MicroServiceMeta) :
    (services lib ownId log)[p]? = some m ↔
      lastNotice lib ownId p log = some (.present m) ∧ lastSweep log ≤ m.lastUpdate + 120 := by
  induction log using List.reverseRecOn with
  | nil => simp [services, lastNotice]
  | append_singleton log d ih =>
    have hbefore : Chronological log := (List.pairwise_append.mp hclock).1
    have ih := ih (fun e he ↦ hlog e (List.mem_append_left _ he)) hbefore
    have hstep : services lib ownId (log ++ [d]) =
        sweep d.swept (applyNotice (services lib ownId log) (d.notice lib ownId)) := by
      rw [← busMessageReceived_eq _ (hlog d (by simp))]
      simp [services]
    rw [hstep, getElem?_sweep, getElem?_applyNotice, lastNotice_append, lastSweep_append]
    generalize hsaid : (d.notice lib ownId).filter (fun n ↦ n.endPoint = p) = said
    rcases said with _ | n
    · -- the message says nothing about the end point: its last notice ages
      have hage (hlast : lastNotice lib ownId p log = some (.present m)) :
          m.lastUpdate ≤ d.swept := by
        obtain ⟨-, e, he, hpresent⟩ := exists_of_lastNotice hlast
        have hreceived := le_lastSweep hbefore e he
        rw [(notice_present hpresent).1]
        exact Nat.le_trans hreceived (Nat.le_trans (lastSweep_le hclock) d.received_le)
      simp only [Option.none_or, Option.filter_eq_some_iff, Bool.not_eq_true']
      rw [ih]
      constructor
      · rintro ⟨⟨hlast, hrecent⟩, hzombie⟩
        refine ⟨hlast, Nat.le_of_not_lt fun hlt ↦ ?_⟩
        rw [(isZombie_iff (hage hlast) d.swept_lt).mpr hlt] at hzombie
        cases hzombie
      · rintro ⟨hlast, hrecent⟩
        refine ⟨⟨hlast, ?_⟩, eq_false_of_ne_true fun hzombie ↦ ?_⟩
        · have hlater := lastSweep_le hclock
          have hswept := d.received_le
          omega
        · have hlt := (isZombie_iff (hage hlast) d.swept_lt).mp hzombie
          omega
    · obtain ⟨hnotice, hp⟩ := Option.filter_eq_some_iff.mp hsaid
      rcases n with m' | q
      · -- a join or a keep-alive is recent when it is swept
        simp only [Notice.metadata, Option.some_or, Option.filter_eq_some_iff, Option.some.injEq,
          Notice.present.injEq, Bool.not_eq_true']
        refine and_congr_right fun hm ↦ ?_
        subst hm
        have hreceived : m'.lastUpdate ≤ d.swept := by
          rw [(notice_present hnotice).1]
          exact d.received_le
        rw [← Bool.not_eq_true, isZombie_iff hreceived d.swept_lt]
        exact Nat.not_lt
      · simp [Notice.metadata]

/-- The services are listed under the end points that they announced. -/
theorem privateEndPoint_of_services {log : List Delivery} (hlog : ∀ e ∈ log, e.WellFormed lib)
    (hclock : Chronological log) {p : String} {m : MicroServiceMeta}
    (h : (services lib ownId log)[p]? = some m) :
    m.privateEndPoint = p ∧ toLower m.type = m.type := by
  obtain ⟨hlast, -⟩ := (getElem?_services hlog hclock p m).mp h
  obtain ⟨hp, d, -, hnotice⟩ := exists_of_lastNotice hlast
  exact ⟨hp, (notice_present hnotice).2⟩

/-- A service is listed when it is registered and its type is the one asked for. -/
theorem mem_getServices {services : MicroServiceMetaMap} {type : String} {m : MicroServiceMeta} :
    m ∈ getServices services type ↔
      (∃ p : String, services[p]? = some m) ∧ m.type = toLower type := by
  unfold getServices
  rw [List.mem_filter, beq_iff_eq]
  refine and_congr_left fun _ ↦ ?_
  simp only [List.mem_map, Prod.exists, Std.TreeMap.mem_toList_iff_getElem?_eq_some,
    exists_eq_right]

end Messages

/-! ### The registry -/

/-- After each message the registry holds exactly the services whose last notice is recent and
says that they are there, and a lookup by type lists exactly those of the type. -/
theorem registry_exact (log : List Delivery) (d : Delivery)
    (hlog : ∀ e ∈ log ++ [d], e.WellFormed lib) (hclock : Chronological (log ++ [d])) :
    Exact lib ownId (log ++ [d]) d.swept (services lib ownId (log ++ [d])) where
  registered p m := by
    rw [getElem?_services hlog hclock, lastSweep_append]
  listed type m := by
    rw [mem_getServices]
    refine and_congr_right fun ⟨p, hp⟩ ↦ ?_
    rw [(privateEndPoint_of_services hlog hclock hp).2]
  once type := by
    refine List.Nodup.filter _ ?_
    rw [List.nodup_iff_pairwise_ne, List.pairwise_map]
    refine List.Pairwise.imp_of_mem (fun {a b} ha hb hkeys heq ↦ hkeys ?_)
      Std.TreeMap.distinct_keys_toList
    have hend {e : String × MicroServiceMeta}
        (he : e ∈ (services lib ownId (log ++ [d])).toList) : e.2.privateEndPoint = e.1 :=
      (privateEndPoint_of_services hlog hclock
        (Std.TreeMap.mem_toList_iff_getElem?_eq_some.mp he)).1
    rw [← hend ha, ← hend hb, heq]
    exact Std.ReflCmp.compare_self

/-! ### A gateway joins -/

/-- The fields of the message. -/
def sampleJoin : JsonObject :=
  [("event", .str "join"), ("id", .int 3), ("type", .str "OWGW"),
    ("publicEndPoint", .str "https://gw:16002"), ("privateEndPoint", .str "https://gw:17002"),
    ("version", .str "3.2"), ("key", .str "k3")]

/-- The message, received at second 100. -/
def sampleDelivery : Delivery where
  payload := "\x7b\"event\":\"join\",\"id\":3,\"type\":\"OWGW\"," ++
    "\"publicEndPoint\":\"https://gw:16002\",\"privateEndPoint\":\"https://gw:17002\"," ++
    "\"version\":\"3.2\",\"key\":\"k3\"\x7d"
  received := 100
  swept := 100
  received_le := Nat.le_refl 100
  swept_lt := by omega

/-- A library that reads the message. -/
def sampleLibrary : JsonLibrary :=
  { JsonLibrary.sample with
    parse := fun text ↦ if text = sampleDelivery.payload then some (.obj sampleJoin) else none }

theorem wellFormed_sampleDelivery : sampleDelivery.WellFormed sampleLibrary := by
  refine ⟨sampleJoin, by simp [sampleLibrary], fun _ ↦ rfl, ?_⟩
  intro field hfield _
  simp only [Fields.announced, List.mem_cons, List.not_mem_nil, or_false] at hfield
  rcases hfield with rfl | rfl | rfl | rfl | rfl | rfl <;> rfl

theorem registry_exact_sample :
    Exact sampleLibrary 7 ([] ++ [sampleDelivery]) 100
      (services sampleLibrary 7 ([] ++ [sampleDelivery])) :=
  registry_exact sampleLibrary 7 [] sampleDelivery
    (by
      intro e he
      obtain rfl := List.mem_singleton.mp he
      exact wellFormed_sampleDelivery)
    (List.pairwise_singleton _ _)

end MicroService

end OwSec
