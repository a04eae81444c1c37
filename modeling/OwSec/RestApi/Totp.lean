import OwSec.Auth.TotpCache

/-!
# The enrolment handlers

`/api/v1/totp` and `/api/v1/subtotp` (`RESTAPI_totp_handler.cpp` and
`RESTAPI_subtotp_handler.cpp`), where a caller enrols an authenticator.  The two handlers
have the same bodies; the second marks its enrolments as those of subscribers.  Neither
asks whether the caller is a user or a subscriber.
-/

namespace OwSec

open SecurityObjects Kit

namespace RestApi

/-- What the enrolment handlers get from outside. -/
structure TotpSource where
  lib : TotpLibrary
  /-- The numbers that `MicroServiceRandom(33, 127)` draws, one after the other. -/
  random : ℕ → ℕ

/-- `TotpCache::GenerateSecret`: as many characters as are asked for. -/
def TotpSource.generateSecret (source : TotpSource) (size : ℕ) : String :=
  String.ofList ((List.range size).map fun i ↦ Char.ofNat (source.random i))

/-- A secret is not empty. -/
theorem TotpSource.generateSecret_ne_empty (source : TotpSource) {size : ℕ} (h : 0 < size) :
    source.generateSecret size ≠ "" := by
  intro hempty
  have hlength : (source.generateSecret size).length = size := by
    simp [generateSecret]
  rw [hempty] at hlength
  exact absurd hlength (by simpa using h.ne)

namespace TotpHandlers

variable (source : TotpSource) (subscriber : Bool)

/-- The body shared by the two `DoGet`. -/
def doGet (c : Context) : Handling Response := do
  let reset := c.request.getBoolParameter "reset"
  let qrCode ← Command.act fun s : Storage ↦
    s.totpStartValidation source.lib c.moment.now (source.generateSecret 20) c.caller subscriber
      reset
  return .file qrCode "image/svg+xml" "qrcode.svg"

/-- The body shared by the two `DoPut`. -/
def doPut (c : Context) : Handling Response := do
  let value := c.request.getParameter "value"
  let nextIndex ← Command.orStop (c.request.getNumberParameter "index" 0) .uncaught
  let answer ← Command.act fun s : Storage ↦
    s.totpContinueValidation source.lib c.moment.now c.caller subscriber value nextIndex
  match answer with
  | .accepted nextIndex moreCodes => return .totpProgress nextIndex moreCodes
  | .refused e => return .badRequest e

end TotpHandlers

variable (source : TotpSource)

/-- `RESTAPI_totp_handler`, on the public or on the internal router. -/
def totpHandler (internal : Bool) : Handler where
  methods := [.GET, .PUT, .OPTIONS]
  internal := internal
  doGet := TotpHandlers.doGet source false
  doPut := TotpHandlers.doPut source false

/-- `RESTAPI_subtotp_handler`, on the public or on the internal router. -/
def subtotpHandler (internal : Bool) : Handler where
  methods := [.GET, .PUT, .OPTIONS]
  internal := internal
  doGet := TotpHandlers.doGet source true
  doPut := TotpHandlers.doPut source true

end RestApi

end OwSec
