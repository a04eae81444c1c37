import Mathlib.Algebra.Group.Nat.Defs
import OwSec.Kit.OrderedMap

/-!
# Notifications over web sockets

`UI_WebSocketClientServer` (`framework/UI_WebSocketClientServer.cpp`) keeps the connections of the
user interfaces by their sockets.  A connection starts without a user; its first message brings a
token, which authenticates it and makes it a connection of the owner of the token.  Later messages
can filter kinds of notifications.  A notification goes to all connections, or to one connection of
a user.

The sending is modelled for any map of connections; the receiving as far as it decides what a
connection looks like to the sending.
-/

namespace OwSec

open Kit

/-- `Utils::Split`: the pieces between the delimiters, without an empty one at the end. -/
def Utils.split (delimiter : Char) (list : String) : List String :=
  let pieces := list.toList.splitOn delimiter
  (if pieces.getLast? = some [] then pieces.dropLast else pieces).map String.ofList

/-- `UI_WebSocketClientInfo`; its socket is the key of its entry. -/
structure UI_WebSocketClientInfo where
  id : String := ""
  userName : String := ""
  authenticated : Bool := false
  filter : List ℕ := []
  deriving DecidableEq

/-- `ClientList`. -/
abbrev ClientList := OrderedMap ℤ UI_WebSocketClientInfo

/-- A text frame that is handed to the connection of a socket. -/
structure TextFrame where
  socket : ℤ
  payload : String
  deriving DecidableEq

/-- `WebSocket::sendFrame` of so many bytes of a text: how many were sent, or an exception. -/
abbrev SendFrame := ℤ → String → ℤ → Option ℤ

namespace UI_WebSocketClientServer

/-- `(int)Payload.size()`. -/
def sizeOfPayload (payload : String) : ℤ := (payload.utf8ByteSize : ℤ).bmod (2 ^ 32)

/-- `NewClient`: nobody is authenticated at first. -/
def newClient (clients : ClientList) (socket : ℤ) (id userName : String) : ClientList :=
  clients.assign socket { id, userName }

/-- `RESTAPI_webSocketServer::DoGet`: the handler does not authorize its request, so that the e-mail
of its `UserInfo_` is empty. -/
def doGet (clients : ClientList) (socket : ℤ) (id : String) : ClientList :=
  newClient clients socket id ""

/-- `OnSocketReadable` with the text of a connection that is not authenticated: the e-mail of the
owner of the token after the colon. -/
def takeToken (isAuthorized : String → Option String) (frame : String)
    (client : UI_WebSocketClientInfo) : UI_WebSocketClientInfo :=
  match Utils.split ':' frame with
  | [_, token] =>
    match isAuthorized token with
    | some email => { client with authenticated := true, userName := email }
    | none => client
  | _ => client

/-- `OnSocketReadable` with the text of an authenticated connection: the numbers in its
`drop-notifications`, if it has that array. -/
def takeFilter (dropNotifications : String → Option (List ℕ)) (frame : String)
    (client : UI_WebSocketClientInfo) : UI_WebSocketClientInfo :=
  match dropNotifications frame with
  | some filters => { client with filter := filters.insertionSort (· ≤ ·) }
  | none => client

/-- `OnSocketReadable` with a text. -/
def onText (isAuthorized : String → Option String) (dropNotifications : String → Option (List ℕ))
    (frame : String) (client : UI_WebSocketClientInfo) : UI_WebSocketClientInfo :=
  if client.authenticated then takeFilter dropNotifications frame client
  else takeToken isAuthorized frame client

/-- The maps of connections that come about; `run` erases connections that have ended. -/
inductive Reachable (isAuthorized : String → Option String)
    (dropNotifications : String → Option (List ℕ)) : ClientList → Prop where
  | start : Reachable isAuthorized dropNotifications OrderedMap.empty
  | doGet {clients : ClientList} (socket : ℤ) (id : String) :
    Reachable isAuthorized dropNotifications clients →
    Reachable isAuthorized dropNotifications (doGet clients socket id)
  | onText {clients : ClientList} {socket : ℤ} {client : UI_WebSocketClientInfo}
    (frame : String) : Reachable isAuthorized dropNotifications clients →
    (socket, client) ∈ clients → Reachable isAuthorized dropNotifications
      (clients.assign socket (onText isAuthorized dropNotifications frame client))
  | erase {clients : ClientList} (socket : ℤ) :
    Reachable isAuthorized dropNotifications clients →
    Reachable isAuthorized dropNotifications (clients.erase socket)

/-- `IsFiltered`. -/
def isFiltered (id : ℕ) (client : UI_WebSocketClientInfo) : Bool := client.filter.contains id

/-- The loop of `SendToUser` over the connections: what it sends, and its answer. -/
def sendToFirst (sendFrame : SendFrame) (userName : String) (id : ℕ) (payload : String) :
    List (ℤ × UI_WebSocketClientInfo) → List TextFrame × Bool
  | [] => ([], false)
  | (socket, client) :: clients =>
    if client.userName = userName then
      if !isFiltered id client && client.authenticated then
        match sendFrame socket payload (sizeOfPayload payload) with
        | some sent => ([⟨socket, payload⟩], sent == sizeOfPayload payload)
        | none => ([⟨socket, payload⟩], false)
      else ([], false)
    else sendToFirst sendFrame userName id payload clients

/-- `SendToUser`. -/
def sendToUser (sendFrame : SendFrame) (clients : ClientList) (userName : String) (id : ℕ)
    (payload : String) : List TextFrame × Bool :=
  sendToFirst sendFrame userName id payload clients.entries

/-- `SendToAll`. -/
def sendToAll (clients : ClientList) (id : ℕ) (payload : String) : List TextFrame :=
  (clients.entries.filter fun e ↦ !isFiltered id e.2 && e.2.authenticated).map fun e ↦
    ⟨e.1, payload⟩

/-- A connection on which a user can be sent notifications of a kind. -/
structure Serves (userName : String) (id : ℕ) (client : UI_WebSocketClientInfo) : Prop where
  user : client.userName = userName
  authenticated : client.authenticated = true
  unfiltered : id ∉ client.filter

/-- Sending a frame succeeds. -/
def Succeeds (sendFrame : SendFrame) : Prop :=
  ∀ socket payload size, sendFrame socket payload size = some size

/-- A notification finds a connection of its user if there is one, and nobody else. -/
structure DeliveryLaw (sendFrame : SendFrame) (clients : ClientList) (userName : String) (id : ℕ)
    (payload : String) : Prop where
  delivered : (∃ e ∈ clients, Serves userName id e.2) → ∃ e ∈ clients, Serves userName id e.2 ∧
    ⟨e.1, payload⟩ ∈ (sendToUser sendFrame clients userName id payload).1
  answer : (sendToUser sendFrame clients userName id payload).2 = true ↔
    ∃ e ∈ clients, Serves userName id e.2
  others : ∀ e ∈ clients, e.2.userName ≠ userName →
    ∀ f ∈ (sendToUser sendFrame clients userName id payload).1, f.socket ≠ e.1

/-- The connection of a user with the least socket. -/
structure IsFirst (clients : ClientList) (userName : String) (e : ℤ × UI_WebSocketClientInfo) :
    Prop where
  mem : e ∈ clients
  user : e.2.userName = userName
  least : ∀ e' ∈ clients, e'.2.userName = userName → e.1 ≤ e'.1

/-- The first connection of a user is as good as any other one. -/
def FirstServes (clients : ClientList) (userName : String) (id : ℕ) : Prop :=
  ∀ e, IsFirst clients userName e →
    Serves userName id e.2 ∨ ∀ e' ∈ clients, ¬ Serves userName id e'.2

section Reachable

variable {isAuthorized : String → Option String} {dropNotifications : String → Option (List ℕ)}

/-- A connection that has a user is authenticated. -/
def Named (client : UI_WebSocketClientInfo) : Prop :=
  client.userName ≠ "" → client.authenticated = true

theorem Named.onText {client : UI_WebSocketClientInfo} (h : Named client) (frame : String) :
    Named (onText isAuthorized dropNotifications frame client) := by
  unfold UI_WebSocketClientServer.onText
  split
  · unfold takeFilter
    split
    · exact h
    · exact h
  · unfold takeToken
    split
    · split
      · exact fun _ ↦ rfl
      · exact h
    · exact h

/-- No connection belongs to a user before it is authenticated. -/
theorem Reachable.named {clients : ClientList}
    (h : Reachable isAuthorized dropNotifications clients) : ∀ e ∈ clients, Named e.2 := by
  induction h with
  | start => exact fun e he ↦ absurd he (OrderedMap.not_mem_empty e)
  | doGet socket id _ ih =>
    intro e he
    rcases OrderedMap.mem_assign.mp he with rfl | ⟨he, -⟩
    · exact fun huser ↦ absurd rfl huser
    · exact ih e he
  | onText frame _ hclient ih =>
    intro e he
    rcases OrderedMap.mem_assign.mp he with rfl | ⟨he, -⟩
    · exact (ih _ hclient).onText frame
    · exact ih e he
  | erase socket _ ih =>
    intro e he
    exact ih e (OrderedMap.mem_erase.mp he).1

/-- On a connection that comes about, a user can be sent every kind that it does not filter. -/
theorem Reachable.serves_iff {clients : ClientList} {e : ℤ × UI_WebSocketClientInfo}
    {userName : String} {id : ℕ} (h : Reachable isAuthorized dropNotifications clients)
    (he : e ∈ clients) (huser : userName ≠ "") :
    Serves userName id e.2 ↔ e.2.userName = userName ∧ id ∉ e.2.filter := by
  constructor
  · exact fun hserves ↦ ⟨hserves.user, hserves.unfiltered⟩
  · rintro ⟨rfl, hunfiltered⟩
    exact ⟨rfl, h.named e he huser, hunfiltered⟩

end Reachable

section Delivery

variable {sendFrame : SendFrame} {clients : ClientList} {userName payload : String} {id : ℕ}

theorem serves_iff {client : UI_WebSocketClientInfo} :
    Serves userName id client ↔
      client.userName = userName ∧ (!isFiltered id client && client.authenticated) = true := by
  constructor
  · rintro ⟨huser, hauthenticated, hunfiltered⟩
    simp [isFiltered, huser, hauthenticated, hunfiltered]
  · rintro ⟨huser, husable⟩
    simp only [isFiltered, Bool.and_eq_true, Bool.not_eq_true', List.contains_eq_mem,
      decide_eq_false_iff_not] at husable
    exact ⟨huser, husable.2, husable.1⟩

theorem isFirst_iff {e : ℤ × UI_WebSocketClientInfo} :
    IsFirst clients userName e ↔ clients.first? (fun c ↦ c.userName = userName) = some e := by
  rw [OrderedMap.first?_eq_some_iff]
  simp only [decide_eq_true_eq]
  exact ⟨fun h ↦ ⟨h.mem, h.user, h.least⟩, fun h ↦ ⟨h.1, h.2.1, h.2.2⟩⟩

theorem sendToFirst_of_none {entries : List (ℤ × UI_WebSocketClientInfo)}
    (h : ∀ e ∈ entries, e.2.userName ≠ userName) :
    sendToFirst sendFrame userName id payload entries = ([], false) := by
  induction entries with
  | nil => rfl
  | cons e entries ih =>
    rw [sendToFirst, if_neg (h e List.mem_cons_self)]
    exact ih fun e' he' ↦ h e' (List.mem_cons_of_mem e he')

/-- The loop ends at the first connection of the user, whatever its state. -/
theorem sendToFirst_of_find {entries : List (ℤ × UI_WebSocketClientInfo)}
    {e : ℤ × UI_WebSocketClientInfo} (hsends : Succeeds sendFrame)
    (h : entries.find? (fun e ↦ e.2.userName = userName) = some e) :
    sendToFirst sendFrame userName id payload entries =
      if !isFiltered id e.2 && e.2.authenticated then ([⟨e.1, payload⟩], true)
      else ([], false) := by
  induction entries with
  | nil => cases h
  | cons e' entries ih =>
    by_cases huser : e'.2.userName = userName
    · rw [List.find?_cons_of_pos (by simpa using huser), Option.some.injEq] at h
      subst h
      simp only [sendToFirst, if_pos huser, hsends e'.1, beq_self_eq_true]
    · rw [List.find?_cons_of_neg (by simpa using huser)] at h
      rw [sendToFirst, if_neg huser]
      exact ih h

theorem sendToUser_of_not_first (h : ∀ e ∈ clients, e.2.userName ≠ userName) :
    sendToUser sendFrame clients userName id payload = ([], false) :=
  sendToFirst_of_none h

theorem sendToUser_of_serves {e : ℤ × UI_WebSocketClientInfo} (hsends : Succeeds sendFrame)
    (hfirst : IsFirst clients userName e) (hserves : Serves userName id e.2) :
    sendToUser sendFrame clients userName id payload = ([⟨e.1, payload⟩], true) := by
  rw [sendToUser, sendToFirst_of_find hsends (isFirst_iff.mp hfirst),
    if_pos (serves_iff.mp hserves).2]

theorem sendToUser_of_not_serves {e : ℤ × UI_WebSocketClientInfo} (hsends : Succeeds sendFrame)
    (hfirst : IsFirst clients userName e) (hserves : ¬ Serves userName id e.2) :
    sendToUser sendFrame clients userName id payload = ([], false) := by
  rw [sendToUser, sendToFirst_of_find hsends (isFirst_iff.mp hfirst), if_neg]
  exact fun husable ↦ hserves (serves_iff.mpr ⟨hfirst.user, husable⟩)

theorem exists_isFirst {e : ℤ × UI_WebSocketClientInfo} (he : e ∈ clients)
    (huser : e.2.userName = userName) : ∃ e', IsFirst clients userName e' := by
  rcases hfirst : clients.first? (fun c ↦ c.userName = userName) with _ | e'
  · have hnone := OrderedMap.first?_eq_none_iff.mp hfirst e he
    exact absurd huser (by simpa using hnone)
  · exact ⟨e', isFirst_iff.mpr hfirst⟩

/-- `SendToAll` reaches every connection that is authenticated and does not filter the kind. -/
theorem mem_sendToAll {f : TextFrame} :
    f ∈ sendToAll clients id payload ↔
      f.payload = payload ∧ ∃ client, (f.socket, client) ∈ clients ∧
        Serves client.userName id client := by
  simp only [sendToAll, List.mem_map, List.mem_filter]
  constructor
  · rintro ⟨e, ⟨he, husable⟩, rfl⟩
    exact ⟨rfl, e.2, he, serves_iff.mpr ⟨rfl, husable⟩⟩
  · rintro ⟨rfl, client, he, hserves⟩
    exact ⟨(f.socket, client), ⟨he, (serves_iff.mp hserves).2⟩, rfl⟩

/-- Nothing is sent where no connection serves. -/
theorem deliveryLaw_of_nothing (hnone : ¬ ∃ e ∈ clients, Serves userName id e.2)
    (hrun : sendToUser sendFrame clients userName id payload = ([], false)) :
    DeliveryLaw sendFrame clients userName id payload := by
  refine ⟨fun hexists ↦ absurd hexists hnone, ?_, ?_⟩
  · rw [hrun]
    exact iff_of_false Bool.false_ne_true hnone
  · intro _ _ _ f hf
    rw [hrun] at hf
    cases hf

theorem deliveryLaw_of_serves {e : ℤ × UI_WebSocketClientInfo} (he : e ∈ clients)
    (hserves : Serves userName id e.2)
    (hrun : sendToUser sendFrame clients userName id payload = ([⟨e.1, payload⟩], true)) :
    DeliveryLaw sendFrame clients userName id payload := by
  refine ⟨fun _ ↦ ⟨e, he, hserves, ?_⟩, ?_, ?_⟩
  · rw [hrun]
    exact List.mem_singleton_self _
  · rw [hrun]
    exact iff_of_true rfl ⟨e, he, hserves⟩
  · intro e' he' hother f hf heq
    rw [hrun, List.mem_singleton] at hf
    subst hf
    have hsame : e'.2 = e.2 := by
      refine OrderedMap.eq_of_mem ?_ he
      rw [show e.1 = e'.1 from heq]
      exact he'
    rw [hsame] at hother
    exact hother hserves.user

end Delivery

/-- A notification to a user is delivered as it should be exactly where the first connection of
the user, in the order of the sockets, serves it if any one does. -/
theorem deliveryLaw_iff {sendFrame : SendFrame} (hsends : Succeeds sendFrame)
    (clients : ClientList) (userName : String) (id : ℕ) (payload : String) :
    DeliveryLaw sendFrame clients userName id payload ↔ FirstServes clients userName id := by
  constructor
  · intro hlaw e hfirst
    by_contra! hobstructed
    obtain ⟨hnot, e', he', hserves⟩ := hobstructed
    have hanswer := hlaw.answer.mpr ⟨e', he', hserves⟩
    rw [sendToUser_of_not_serves hsends hfirst hnot] at hanswer
    cases hanswer
  · intro hfirst
    by_cases huser : ∃ e ∈ clients, e.2.userName = userName
    · obtain ⟨e, he, heuser⟩ := huser
      obtain ⟨first, hisFirst⟩ := exists_isFirst he heuser
      by_cases hserves : Serves userName id first.2
      · exact deliveryLaw_of_serves hisFirst.mem hserves
          (sendToUser_of_serves hsends hisFirst hserves)
      · refine deliveryLaw_of_nothing ?_ (sendToUser_of_not_serves hsends hisFirst hserves)
        rintro ⟨e', he', hserves'⟩
        exact (hfirst first hisFirst).resolve_left hserves e' he' hserves'
    · push Not at huser
      refine deliveryLaw_of_nothing ?_ (sendToUser_of_not_first huser)
      rintro ⟨e, he, hserves⟩
      exact huser e he hserves.user

/-- Sending that always succeeds. -/
def alwaysSends : SendFrame := fun _ _ size ↦ some size

/-- Who has a token. -/
def annsToken (token : String) : Option String :=
  if token = "t" then some "ann@example.com" else none

/-- The kinds that a text drops. -/
def dropsFirst (frame : String) : Option (List ℕ) :=
  if frame = "drop 1" then some [1] else none

/-- The window of Ann that drops the notifications of the first kind. -/
def filtering : UI_WebSocketClientInfo :=
  onText annsToken dropsFirst "drop 1" (onText annsToken dropsFirst "token:t" { id := "1" })

/-- The window of Ann that drops nothing. -/
def listening : UI_WebSocketClientInfo := onText annsToken dropsFirst "token:t" { id := "2" }

/-- Two windows that Ann has opened, of which the one with the lesser socket filters a kind. -/
def twoWindows : ClientList :=
  let named := (doGet OrderedMap.empty 7 "1").assign 7
    (onText annsToken dropsFirst "token:t" { id := "1" })
  (doGet (named.assign 7 filtering) 9 "2").assign 9 listening

theorem succeeds_alwaysSends : Succeeds alwaysSends := fun _ _ _ ↦ rfl

theorem listening_eq :
    listening = { id := "2", userName := "ann@example.com", authenticated := true } := by
  decide +kernel

theorem listening_serves : Serves "ann@example.com" 1 listening := by
  rw [listening_eq]
  exact ⟨rfl, rfl, List.not_mem_nil⟩

/-- The two windows come about by the messages of their user. -/
theorem reachable_twoWindows : Reachable annsToken dropsFirst twoWindows := by
  have hnamed : Reachable annsToken dropsFirst ((doGet OrderedMap.empty 7 "1").assign 7
      (onText annsToken dropsFirst "token:t" { id := "1" })) :=
    (Reachable.start.doGet 7 "1").onText "token:t" (OrderedMap.mem_assign.mpr (.inl rfl))
  have hfiltering := hnamed.onText "drop 1" (OrderedMap.mem_assign.mpr (.inl rfl))
  exact (hfiltering.doGet 9 "2").onText "token:t" (OrderedMap.mem_assign.mpr (.inl rfl))

/-- A window that filters the kind hides the other one, which the broadcast reaches. -/
theorem second_window_unreached :
    Reachable annsToken dropsFirst twoWindows ∧
      sendToUser alwaysSends twoWindows "ann@example.com" 1 "{}" = ([], false) ∧
      sendToAll twoWindows 1 "{}" = [⟨9, "{}"⟩] ∧
      ¬ DeliveryLaw alwaysSends twoWindows "ann@example.com" 1 "{}" := by
  have hrun : sendToUser alwaysSends twoWindows "ann@example.com" 1 "{}" = ([], false) := by
    decide +kernel
  refine ⟨reachable_twoWindows, hrun, by decide +kernel, fun hlaw ↦ ?_⟩
  have hanswer := hlaw.answer.mpr
    ⟨(9, listening), OrderedMap.mem_assign.mpr (.inl rfl), listening_serves⟩
  rw [hrun] at hanswer
  cases hanswer

/-- The law at two windows. -/
theorem deliveryLaw_iff_twoWindows :
    DeliveryLaw alwaysSends twoWindows "ann@example.com" 1 "{}" ↔
      FirstServes twoWindows "ann@example.com" 1 :=
  deliveryLaw_iff succeeds_alwaysSends _ _ _ _

end UI_WebSocketClientServer

end OwSec
