import OwSec.Auth.TotpCompleteness
import OwSec.Seclibs.Base32
import OwSec.Seclibs.Otp

/-!
# The authenticator of a user

`TotpCache` on top of `seclibs/cpptotp`.  The service keeps a secret and checks codes of it; the
user has a picture and an authenticator, which reads the text of the picture, decodes the secret
that it carries and shows the standard codes of it.  Both work with the same key, in every session
that the cache can hold, and an enrolment with an authenticator goes through.

What makes pictures and what reads them is not modelled, but that a picture is read as the text
that it was made of.
-/

namespace OwSec

open SecurityObjects Kit CppTotp CppTotp.Bytes

/-! ## The library -/

/-- The bytes of a text, up to a zero: what a constructor makes of `c_str()`. -/
def cString (s : String) : List UInt8 := s.toUTF8.data.toList.takeWhile (· != 0)

/-- A text of single bytes. -/
def ofBytes (bytes : List UInt8) : String := .ofList (bytes.map fun b ↦ Char.ofNat b.toNat)

/-- The bytes of a text of single bytes. -/
def toBytes (cs : List Char) : List UInt8 := cs.map fun c ↦ .ofNat c.toNat

namespace TotpLibrary

/-- The functions of `CppTotp`, with an issuer and a way to make pictures. -/
def cppTotp (issuer : String) (toSvgString : String → String) : TotpLibrary where
  issuer := issuer
  hmacSha1 secret msg := hmacSha1_64 (cString secret) msg
  toBase32 secret := ofBytes (((CppTotp.Bytes.toBase32 (cString secret)).toOption).getD [])
  toSvgString := toSvgString

variable (issuer : String) (toSvgString : String → String)

/-- The two ways to write a counter. -/
theorem u64beToByteString_eq (n : ℕ) :
    u64beToByteString n = CppTotp.Bytes.u64beToByteString (.ofNat 64 n) := by
  have hbyte (x : BitVec 32) (k : ℕ) :
      UInt8.ofBitVec (byteOf x k) = .ofNat (x.toNat / 256 ^ k) := by
    rw [← UInt8.toNat_inj, UInt8.toNat_ofBitVec, byteOf, BitVec.extractLsb'_toNat,
      UInt8.toNat_ofNat', Nat.shiftRight_eq_div_pow, Nat.pow_mul]
  have hhigh : (((BitVec.ofNat 64 n >>> 32 &&& 0xFFFFFFFF).setWidth 32 : BitVec 32)).toNat =
      n / 256 ^ 4 % 2 ^ 32 := by
    have hmask := Nat.and_two_pow_sub_one_eq_mod (n % 2 ^ 64 / 2 ^ 32) 32
    rw [BitVec.toNat_setWidth, BitVec.toNat_and, BitVec.toNat_ushiftRight, BitVec.toNat_ofNat,
      Nat.shiftRight_eq_div_pow]
    refine (congrArg (· % 2 ^ 32) hmask).trans ?_
    omega
  have hlow : (((BitVec.ofNat 64 n >>> 0 &&& 0xFFFFFFFF).setWidth 32 : BitVec 32)).toNat =
      n % 2 ^ 32 := by
    have hmask := Nat.and_two_pow_sub_one_eq_mod (n % 2 ^ 64) 32
    rw [BitVec.toNat_setWidth, BitVec.toNat_and, BitVec.toNat_ushiftRight, BitVec.toNat_ofNat,
      Nat.shiftRight_zero]
    refine (congrArg (· % 2 ^ 32) hmask).trans ?_
    omega
  have hofNat {m m' : ℕ} (h : m % 256 = m' % 256) : UInt8.ofNat m = .ofNat m' := by
    rw [← UInt8.toNat_inj, UInt8.toNat_ofNat', UInt8.toNat_ofNat']
    exact h
  rw [CppTotp.Bytes.u64beToByteString, u32beToByteString_eq, u32beToByteString_eq]
  simp only [hbyte, hhigh, hlow, u64beToByteString, List.map_cons, List.map_nil, List.cons_append,
    List.nil_append, List.cons.injEq, and_true]
  refine ⟨hofNat ?_, hofNat ?_, hofNat ?_, hofNat ?_, hofNat ?_, hofNat ?_, hofNat ?_, hofNat ?_⟩
  all_goals omega

/-- A word is the number of its bytes. -/
theorem toNat_networkWord (b₀ b₁ b₂ b₃ : UInt8) :
    (networkWord b₀ b₁ b₂ b₃).toNat = [b₀, b₁, b₂, b₃].foldl (fun n b ↦ n * 256 + b.toNat) 0 := by
  have happend {w : ℕ} (x : BitVec w) (b : UInt8) :
      (x ++ b.toBitVec).toNat = x.toNat * 256 + b.toNat := by
    rw [BitVec.toNat_append, ← Nat.shiftLeft_add_eq_or_of_lt (BitVec.isLt _), Nat.shiftLeft_eq]
    rfl
  rw [networkWord, wordOf, happend, happend, happend]
  simp

/-- The codes of the cache are those of `CppTotp::hotp`. -/
theorem hotp_cppTotp (key : String) (counter : ℕ) {digitCount : ℕ} (h : digitCount ≤ 9) :
    CppTotp.hotp (cString key) (.ofNat 64 counter) digitCount hmacSha1_64 =
      some ((cppTotp issuer toSvgString).hotp key counter digitCount) := by
  have hpow := toNat_digits10 h
  have hpos : digits10 digitCount ≠ 0 := digits10_ne_zero h
  simp only [CppTotp.hotp, hotp, cppTotp, ← u64beToByteString_eq]
  have hlength : (hmacSha1_64 (cString key) (u64beToByteString counter)).length = 20 :=
    length_hmacSha1 ..
  generalize hmacSha1_64 (cString key) (u64beToByteString counter) = hmac at hlength ⊢
  obtain ⟨last, hlast⟩ : ∃ last, hmac[hmac.length - 1]? = some last :=
    ⟨_, List.getElem?_eq_getElem (by omega)⟩
  have hlastD : hmac.getLastD 0 = last := by
    rw [List.getLastD_eq_getLast?, List.getLast?_eq_getElem?, hlast, Option.getD_some]
  have hnibble : last.toNat &&& 0x0F = last.toNat % 16 :=
    Nat.and_two_pow_sub_one_eq_mod last.toNat 4
  have hbytes : ((hmac.drop (last.toNat % 16)).take 4).length = 4 := by
    rw [List.length_take, List.length_drop]
    omega
  obtain ⟨b₀, b₁, b₂, b₃, hfour⟩ := List.length_eq_four.mp hbytes
  have hword : fourWord hmac (last.toNat % 16) = some (networkWord b₀ b₁ b₂ b₃) := by
    rw [fourWord, hfour, networkWord_eq_or]
    rfl
  have hmask : (networkWord b₀ b₁ b₂ b₃ &&& 0x7FFFFFFF).toNat =
      (networkWord b₀ b₁ b₂ b₃).toNat % 2 ^ 31 := by
    rw [BitVec.toNat_and]
    exact Nat.and_two_pow_sub_one_eq_mod _ 31
  simp only [hlast, hlastD, hnibble, hword, hfour, hmask, hpow, hpos, toNat_networkWord, if_false,
    Option.bind_eq_bind, Option.bind_some]

/-- The code that is expected is the standard one, with its zeros. -/
theorem expecting_cppTotp (secret : String) {now : ℕ} (h : now < 2 ^ 64) :
    (cppTotp issuer toSvgString).expecting secret now =
      SecureHash.shown (SecureHash.totp (bits (cString secret)) now 0 30 6) 6 := by
  have hcounter : u64 (now + 2 ^ 64 - 0) / 30 = now / 30 := by
    rw [Nat.sub_zero, u64, Nat.add_mod_right, Nat.mod_eq_of_lt h]
  have hfits : (BitVec.ofNat 64 (now / 30)).toNat = now / 30 := by
    rw [BitVec.toNat_ofNat]
    omega
  have hsix : 6 ≤ 9 := by decide
  have hcode : (cppTotp issuer toSvgString).totp secret now 0 30 6 =
      SecureHash.totp (bits (cString secret)) now 0 30 6 := by
    have hhotp := hotp_cppTotp issuer toSvgString secret (now / 30) hsix
    rw [hotp_eq _ _ hsix, hfits] at hhotp
    rw [totp, hcounter, SecureHash.totp, Nat.sub_zero]
    exact (Option.some.inj hhotp).symm
  rw [expecting, hcode, SecureHash.shown, ← replicate_append_toDigits (by decide)]
  exact SecureHash.hotp_lt ..

end TotpLibrary

/-! ## Reading a picture -/

/-- The query of an address: what follows the question mark. -/
def uriQuery (uri : List Char) : List Char :=
  ((uri.takeWhile (· != '#')).dropWhile (· != '?')).drop 1

/-- The value of a parameter of an address. -/
def uriParameter (name uri : List Char) : Option (List Char) :=
  ((uriQuery uri).splitOn '&').findSome? fun field ↦
    if (name ++ ['=']).isPrefixOf field then some (field.drop (name.length + 1)) else none

/-- The key that an authenticator takes from the text of a picture. -/
def scannedKey (text : String) : Option (List UInt8) := do
  let secret ← uriParameter "secret".toList text.toList
  (fromUnpaddedBase32 (toBytes secret)).toOption

/-- What an authenticator with a key shows at a time. -/
def displayed (key : List UInt8) (now : ℕ) : String :=
  SecureHash.shown (SecureHash.totp (bits key) now 0 30 6) 6

/-- A text that does not end what is in front of the query of an address. -/
def Plain (text : String) : Prop := '?' ∉ text.toList ∧ '#' ∉ text.toList

/-- The first parameter of an address is found behind anything that is plain. -/
theorem uriParameter_first {front name value : List Char} (hfront : '?' ∉ front ∧ '#' ∉ front)
    (hname : '&' ∉ name ∧ '#' ∉ name) (hvalue : '&' ∉ value ∧ '#' ∉ value) (rest : List Char) :
    uriParameter name (front ++ '?' :: (name ++ '=' :: value ++ '&' :: rest)) = some value := by
  have hfield : '&' ∉ name ++ '=' :: value ∧ '#' ∉ name ++ '=' :: value := by
    simp [hname, hvalue]
  have hkept {l : List Char} (h : '#' ∉ l) : ∀ c ∈ l, (c != '#') = true :=
    fun c hc ↦ bne_iff_ne.mpr fun heq ↦ h (heq ▸ hc)
  have hquery : uriQuery (front ++ '?' :: (name ++ '=' :: value ++ '&' :: rest)) =
      name ++ '=' :: value ++ '&' :: rest.takeWhile (· != '#') := by
    have hpath : ∀ c ∈ front, (c != '?') = true :=
      fun c hc ↦ bne_iff_ne.mpr fun heq ↦ hfront.1 (heq ▸ hc)
    rw [uriQuery, List.takeWhile_append_of_pos (hkept hfront.2), List.takeWhile_cons_of_pos (by decide),
      List.takeWhile_append_of_pos (hkept hfield.2), List.takeWhile_cons_of_pos (by decide),
      List.dropWhile_append_of_pos hpath, List.dropWhile_cons_of_neg (by decide), List.drop_one,
      List.tail_cons]
  have hprefix : (name ++ ['=']).isPrefixOf (name ++ '=' :: value) = true := by
    rw [List.isPrefixOf_iff_prefix]
    exact ⟨value, by simp⟩
  have hdrop : (name ++ '=' :: value).drop (name.length + 1) = value := by
    rw [List.drop_length_add_append]
    rfl
  rw [uriParameter, hquery, List.splitOn_append_cons_self_of_not_mem hfield.1,
    List.findSome?_cons, hprefix]
  simp only [if_true, hdrop]

/-- Single bytes go through a text unchanged. -/
theorem toBytes_ofBytes (bytes : List UInt8) : toBytes (ofBytes bytes).toList = bytes := by
  have hbyte (b : UInt8) : UInt8.ofNat (Char.ofNat b.toNat).toNat = b := by
    have hb := b.toNat_lt
    have hvalid : b.toNat.isValidChar := .inl (by omega)
    have hchar : Char.ofNat b.toNat = Char.ofNatAux b.toNat hvalid := dif_pos hvalid
    rw [hchar]
    exact UInt8.ofNat_toNat
  rw [toBytes, ofBytes, String.toList_ofList, List.map_map]
  conv_rhs => rw [← List.map_id bytes]
  exact List.map_congr_left fun b _ ↦ hbyte b

/-- The picture that the cache makes for a secret carries the secret. -/
theorem scannedKey_qrCode {issuer email : String} (hissuer : Plain issuer) (hemail : Plain email)
    (toSvgString : String → String) (secret : String) :
    ∃ text, (TotpLibrary.cppTotp issuer toSvgString).generateQRCode
        ((TotpLibrary.cppTotp issuer toSvgString).toBase32 secret) email = toSvgString text ∧
      scannedKey text = some (cString secret) := by
  obtain ⟨base32, hbase32⟩ : ∃ base32, CppTotp.Bytes.toBase32 (cString secret) = .ok base32 :=
    ⟨_, toBase32_eq _⟩
  obtain ⟨hread, hchars⟩ := fromUnpaddedBase32_of_toBase32 hbase32
  have hsecret : (TotpLibrary.cppTotp issuer toSvgString).toBase32 secret = ofBytes base32 := by
    simp only [TotpLibrary.cppTotp, hbase32]
    rfl
  have hplain : '&' ∉ (ofBytes base32).toList ∧ '#' ∉ (ofBytes base32).toList := by
    have hsymbols : ∀ d : Fin 32, Char.ofNat (b32Char d).toNat ≠ '&' ∧
        Char.ofNat (b32Char d).toNat ≠ '#' := by decide
    have hpad : Char.ofNat pad.toNat ≠ '&' ∧ Char.ofNat pad.toNat ≠ '#' := by decide
    have hall : ∀ b ∈ base32, Char.ofNat b.toNat ≠ '&' ∧ Char.ofNat b.toNat ≠ '#' := by
      intro b hb
      rcases hchars b hb with rfl | ⟨d, hd, rfl⟩
      · exact hpad
      · exact hsymbols ⟨d, hd⟩
    rw [ofBytes, String.toList_ofList]
    constructor
    · intro hmem
      obtain ⟨b, hb, heq⟩ := List.mem_map.mp hmem
      exact (hall b hb).1 heq
    · intro hmem
      obtain ⟨b, hb, heq⟩ := List.mem_map.mp hmem
      exact (hall b hb).2 heq
  have hfront : '?' ∉ ("otpauth://totp/" ++ issuer ++ ":" ++ email).toList ∧
      '#' ∉ ("otpauth://totp/" ++ issuer ++ ":" ++ email).toList := by
    simp [hissuer.1, hissuer.2, hemail.1, hemail.2]
  have hname : '&' ∉ "secret".toList ∧ '#' ∉ "secret".toList := by decide
  have hparameter := uriParameter_first hfront hname hplain ("issuer=" ++ issuer).toList
  refine ⟨_, rfl, ?_⟩
  rw [hsecret, scannedKey]
  have htext : ("otpauth://totp/" ++ issuer ++ ":" ++ email ++ "?secret=" ++ ofBytes base32 ++
      "&issuer=" ++ issuer).toList = ("otpauth://totp/" ++ issuer ++ ":" ++ email).toList ++
        '?' :: ("secret".toList ++ '=' :: (ofBytes base32).toList ++
          '&' :: ("issuer=" ++ issuer).toList) := by
    simp
  simp only [TotpLibrary.cppTotp] at htext ⊢
  rw [htext, hparameter]
  simp only [Option.bind_eq_bind, Option.bind_some, toBytes_ofBytes, hread]
  rfl

/-! ## Every session -/

namespace Enrolments

section Entries

variable {lib : TotpLibrary} {ok : Enrolments → EnrolmentEvent → Prop}

/-- What holds of each session that is begun, and depends on its secret and its picture only, holds
of every session in every run. -/
theorem entries_of_reachable {Q : String → String → Prop}
    (hstart : ∀ s now secret user subscriber reset,
      ok s (.start now secret user subscriber reset) →
        Q secret (lib.generateQRCode (lib.toBase32 secret) user.email))
    {s : Enrolments} (h : ((system lib).restrict ok).Reachable s) :
    ∀ userId e, s.storage.totp.lookup userId = some e → Q e.secret e.qrCode := by
  refine h.invariant
    (I := fun s ↦ ∀ userId e, s.storage.totp.lookup userId = some e → Q e.secret e.qrCode) ?_ ?_
  · intro s hs userId e he
    rw [hs.1] at he
    simp at he
  · rintro s event s' hs ⟨hstep, hok⟩ userId e he
    have hinsert {totp : Cache String TotpEntry} {id : String} {new : TotpEntry}
        (hold : ∀ userId e, totp.lookup userId = some e → Q e.secret e.qrCode)
        (hnew : Q new.secret new.qrCode) (he : (totp.insert id new).lookup userId = some e) :
        Q e.secret e.qrCode := by
      rw [Cache.lookup_insert_eq] at he
      split at he
      · exact Option.some.inj he ▸ hnew
      · exact hold userId e he
    cases hstep with
    | @start now secret user subscriber reset hnow =>
      change (s.storage.totpStartValidation lib now secret user subscriber
        reset).2.totp.lookup userId = some e at he
      rw [Storage.totpStartValidation_totp] at he
      split at he
      · exact hinsert hs (hstart s now secret user subscriber reset hok) he
      · exact hs userId e he
    | @continueWith now user subscriber code nextIndex hnow =>
      have hcases :=
        Storage.totpContinueValidation_cases lib now s.storage user subscriber code nextIndex
      change (s.storage.totpContinueValidation lib now user subscriber code
        nextIndex).2.totp.lookup userId = some e at he
      generalize s.storage.totpContinueValidation lib now user subscriber code nextIndex = r
        at hcases he
      cases hcases with
      | first found hlookup =>
        refine hinsert hs ?_ he
        exact hs user.id found hlookup
      | second found hlookup =>
        refine hinsert hs ?_ he
        exact hs user.id found hlookup
      | refused => exact hs userId e he
    | @complete now user subscriber hnow =>
      change (s.storage.totpCompleteValidation now user.id subscriber).2.totp.lookup userId =
        some e at he
      rcases hl : (s.storage.totpCompleteValidation now user.id subscriber).1 with _ | secret
      · rw [Storage.totpCompleteValidation_none hl] at he
        exact hs userId e he
      · obtain ⟨_, -, -, -, -, -, htotp⟩ := Storage.totpCompleteValidation_some hl
        rw [htotp, Cache.lookup_erase_eq] at he
        split at he
        · cases he
        · exact hs userId e he
    | @elsewhere storage htotp =>
      change storage.totp.lookup userId = some e at he
      rw [htotp] at he
      exact hs userId e he

end Entries

/-- A session is begun for a user with an e-mail address. -/
def Addressed (_ : Enrolments) : EnrolmentEvent → Prop
  | .start _ _ user _ _ => validEMailAddress user.email = true
  | _ => True

theorem plain_of_validEMailAddress {email : String} (h : validEMailAddress email = true) :
    Plain email :=
  ⟨notMem_of_validEMailAddress h (by decide) (by decide),
    notMem_of_validEMailAddress h (by decide) (by decide)⟩

section Authenticator

variable {issuer : String} {toSvgString : String → String}

/-- The calls, with the functions of `CppTotp`, for users who have an e-mail address. -/
def authenticated (issuer : String) (toSvgString : String → String) :
    System Enrolments EnrolmentEvent :=
  (system (.cppTotp issuer toSvgString)).restrict Addressed

/-- In every run the picture of each session carries its secret. -/
theorem scannedKey_of_reachable (hissuer : Plain issuer) {s : Enrolments}
    (h : (authenticated issuer toSvgString).Reachable s) {userId : String} {e : TotpEntry}
    (he : s.storage.totp.lookup userId = some e) :
    ∃ text, e.qrCode = toSvgString text ∧ scannedKey text = some (cString e.secret) :=
  entries_of_reachable (Q := fun secret qrCode ↦
      ∃ text, qrCode = toSvgString text ∧ scannedKey text = some (cString secret))
    (fun _ _ secret _ _ _ hok ↦
      scannedKey_qrCode hissuer (plain_of_validEMailAddress hok) toSvgString secret)
    h userId e he

/-- A code is valid if an authenticator with the bytes of the secret shows it. -/
theorem validateCode_cppTotp (secret code : String) {now : ℕ} (hnow : now < 2 ^ 64) :
    (TotpLibrary.cppTotp issuer toSvgString).validateCode secret code now = true ↔
      code = displayed (cString secret) now := by
  rw [TotpLibrary.validateCode, beq_iff_eq, TotpLibrary.expecting_cppTotp _ _ _ hnow]
  exact Iff.rfl

/-- In every run an authenticator that reads the picture of a session gets a key, and the service
accepts exactly the code that the authenticator shows at the time. -/
theorem authenticator_agrees (hissuer : Plain issuer) {s : Enrolments}
    (h : (authenticated issuer toSvgString).Reachable s) {userId : String} {e : TotpEntry}
    (he : s.storage.totp.lookup userId = some e) :
    ∃ text key, e.qrCode = toSvgString text ∧ scannedKey text = some key ∧
      ∀ code now, now < 2 ^ 64 →
        ((TotpLibrary.cppTotp issuer toSvgString).validateCode e.secret code now = true ↔
          code = displayed key now) := by
  obtain ⟨text, hpicture, hkey⟩ := scannedKey_of_reachable hissuer h he
  exact ⟨text, cString e.secret, hpicture, hkey, fun code now ↦ validateCode_cppTotp e.secret code⟩

/-- A way to make pictures, and to read them. -/
def sampleSvg (text : String) : String := "<svg>" ++ text ++ "</svg>"

/-- See `sampleSvg`. -/
def sampleRead (picture : String) : Option String :=
  some (.ofList ((picture.toList.drop 5).take (picture.length - 11)))

theorem sampleRead_sampleSvg (text : String) : sampleRead (sampleSvg text) = some text := by
  have hdrop : (sampleSvg text).toList.drop 5 = text.toList ++ "</svg>".toList := by
    simp [sampleSvg]
  have hlength : (sampleSvg text).length - 11 = text.toList.length := by
    have hfront : "<svg>".length = 5 := rfl
    have hback : "</svg>".length = 6 := rfl
    rw [sampleSvg, String.length_append, String.length_append, hfront, hback, String.length_toList]
    omega
  rw [sampleRead, hdrop, hlength, List.take_left, String.ofList_toList]

/-- A user whose session has just begun. -/
theorem authenticator_agrees_begun :
    let lib := TotpLibrary.cppTotp "OpenWiFi" sampleSvg
    let user : UserInfo := { id := "uuid-a", email := "jo@example.com" }
    ∃ text key, lib.generateQRCode (lib.toBase32 "12345678901234567890") user.email = sampleSvg text ∧
      scannedKey text = some key ∧ ∀ code now, now < 2 ^ 64 →
        (lib.validateCode "12345678901234567890" code now = true ↔ code = displayed key now) := by
  intro lib user
  have hbegun : (authenticated "OpenWiFi" sampleSvg).Reachable
      (({} : Enrolments).start lib 1700000000 "12345678901234567890" user false false) :=
    (System.Reachable.init atStart_empty).step
      ⟨Step.start "12345678901234567890" user false false (by decide),
        show validEMailAddress "jo@example.com" = true by decide⟩
  have hentry : AList.lookup "uuid-a" (({} : Enrolments).start lib 1700000000
      "12345678901234567890" user false false).storage.totp = some _ := rfl
  exact authenticator_agrees (by unfold Plain; decide) hbegun hentry

/-! ## An enrolment with an authenticator -/

/-- The calls of an enrolment, their order and their times: `Proceeds` but for the codes. -/
structure Timely (lib : TotpLibrary) (q : Attempt) (s : Enrolments) : Prop where
  starts : s.Ticks q.started
  waitsFirst : Waits lib q.user.id (q.opened lib s) q.beforeFirst
  first : q.beforeFirst.Ticks q.first
  waitsSecond : Waits lib q.user.id (q.afterFirst lib) q.beforeSecond
  second : q.beforeSecond.Ticks q.second
  waitsLast : Waits lib q.user.id (q.afterSecond lib) q.beforeLast
  last : q.beforeLast.Ticks q.completed
  within : q.completed < q.started + 15 * 60

/-- The user reads the picture with an authenticator, and types what it shows. -/
structure Scans (lib : TotpLibrary) (read : String → Option String) (q : Attempt)
    (s : Enrolments) (key : List UInt8) : Prop where
  picture : (read (q.picture lib s)).bind scannedKey = some key
  first : q.firstCode = displayed key q.first
  second : q.secondCode = displayed key q.second
  differ : q.secondCode ≠ q.firstCode

/-- The session that was opened has the key that the authenticator took from the picture. -/
theorem session_of_scans (hissuer : Plain issuer) {read : String → Option String} {s : Enrolments}
    (h : (authenticated issuer toSvgString).Reachable s) {q : Attempt}
    (hread : ∀ text, q.picture (.cppTotp issuer toSvgString) s = toSvgString text →
      read (toSvgString text) = some text)
    (hemail : validEMailAddress q.user.email = true) (hstarts : s.Ticks q.started)
    {key : List UInt8} (hq : Scans (.cppTotp issuer toSvgString) read q s key) {e : TotpEntry}
    (he : q.session (.cppTotp issuer toSvgString) s = some e) : cString e.secret = key := by
  have hopened : (authenticated issuer toSvgString).Reachable
      (q.opened (.cppTotp issuer toSvgString) s) :=
    h.step ⟨Step.start q.drawn q.user q.subscriber q.reset hstarts, hemail⟩
  obtain ⟨text, hpicture, hkey⟩ := scannedKey_of_reachable hissuer hopened he
  obtain ⟨e', he', -, hshown, -⟩ := Attempt.session_cases (.cppTotp issuer toSvgString) q s
  obtain rfl := Option.some.inj (he.symm.trans he')
  have hscan := hq.picture
  rw [← hshown, hpicture, hread text (hshown ▸ hpicture), Option.bind_some, hkey] at hscan
  exact Option.some.inj hscan

/-- **An authenticator enrols.**  A user who reads the picture with an authenticator and types two
different codes that it shows is given the secret exactly when the enrolment was opened on a fresh
session, and the secret is the key of the authenticator.  The picture has to be read as its text. -/
theorem enrols_with_authenticator (hissuer : Plain issuer) {read : String → Option String}
    {s : Enrolments} (h : (authenticated issuer toSvgString).Reachable s) {q : Attempt}
    (hread : ∀ text, q.picture (.cppTotp issuer toSvgString) s = toSvgString text →
      read (toSvgString text) = some text)
    (hemail : validEMailAddress q.user.email = true)
    (htimely : Timely (.cppTotp issuer toSvgString) q s) {key : List UInt8}
    (hq : Scans (.cppTotp issuer toSvgString) read q s key) :
    (q.Completes (.cppTotp issuer toSvgString) s ↔ q.OpensFresh s) ∧
      ∀ e, q.session (.cppTotp issuer toSvgString) s = some e → cString e.secret = key := by
  have hkey : ∀ e, q.session (.cppTotp issuer toSvgString) s = some e → cString e.secret = key :=
    fun e he ↦ session_of_scans hissuer h hread hemail htimely.starts hq he
  refine ⟨?_, hkey⟩
  have hproceeds : q.Proceeds (.cppTotp issuer toSvgString) s :=
    { htimely with
      differ := hq.differ
      firstValid := by
        intro e he
        rw [validateCode_cppTotp _ _ htimely.first.2.2, hkey e he]
        exact hq.first
      secondValid := by
        intro e he
        rw [validateCode_cppTotp _ _ htimely.second.2.2, hkey e he]
        exact hq.second }
  have hreachable := h.of_restrict
  obtain ⟨e, hsession, hsubscriber, -⟩ := Attempt.session_cases (.cppTotp issuer toSvgString) q s
  have hstart := start_le hreachable hproceeds hsession
  rw [Attempt.opensFresh_iff hproceeds hsession]
  constructor
  · exact fresh_of_completes hproceeds hstart hsession
  · rintro ⟨hverifications, hyoung⟩
    exact completes_of_fresh hproceeds hstart hsession hsubscriber hverifications hyoung

/-- What an authenticator shows at a time, from the implementation. -/
theorem displayed_eq {key : List UInt8} {now code : ℕ} (hnow : now < 2 ^ 64)
    (h : CppTotp.hotp key (.ofNat 64 (now / 30)) 6 hmacSha1_64 = some code) :
    displayed key now = SecureHash.shown code 6 := by
  have hfits : (BitVec.ofNat 64 (now / 30)).toNat = now / 30 := by
    rw [BitVec.toNat_ofNat]
    omega
  rw [hotp_eq _ _ (by decide), hfits] at h
  rw [displayed, SecureHash.totp, Nat.sub_zero, Option.some.inj h]

/-- What an authenticator shows twice within a minute. -/
theorem displayed_sample :
    displayed (cString "12345678901234567890") 1700000010 = "732303" ∧
      displayed (cString "12345678901234567890") 1700000045 = "136087" := by
  have hkey : cString "12345678901234567890" = [0x31, 0x32, 0x33, 0x34, 0x35, 0x36, 0x37, 0x38,
      0x39, 0x30, 0x31, 0x32, 0x33, 0x34, 0x35, 0x36, 0x37, 0x38, 0x39, 0x30] := by decide +kernel
  rw [hkey]
  constructor
  · have hcode : SecureHash.shown 732303 6 = "732303" := by decide
    rw [← hcode]
    refine displayed_eq (by decide) ?_
    simp only [CppTotp.hotp, hmacSha1_64, hmacSha1, sha1, padMessage, padZeros_eq]
    decide +kernel
  · have hcode : SecureHash.shown 136087 6 = "136087" := by decide
    rw [← hcode]
    refine displayed_eq (by decide) ?_
    simp only [CppTotp.hotp, hmacSha1_64, hmacSha1, sha1, padMessage, padZeros_eq]
    decide +kernel

/-- The user of the example. -/
def scanningUser : UserInfo := { id := "uuid-a", email := "jo@example.com" }

/-- The user is shown the picture. -/
def scannedOpened : Enrolments :=
  ({} : Enrolments).start (.cppTotp "OpenWiFi" sampleSvg) 1700000000 "12345678901234567890"
    scanningUser false false

/-- The user has typed a code. -/
def scannedOnce : Enrolments :=
  scannedOpened.continueWith (.cppTotp "OpenWiFi" sampleSvg) 1700000010 scanningUser false "732303" 1

/-- The user has typed another one. -/
def scannedTwice : Enrolments :=
  scannedOnce.continueWith (.cppTotp "OpenWiFi" sampleSvg) 1700000045 scanningUser false "136087" 2

/-- A user who enrols without a pause. -/
def scannedAttempt : Attempt where
  user := scanningUser
  subscriber := false
  reset := false
  drawn := "12345678901234567890"
  started := 1700000000
  beforeFirst := scannedOpened
  firstCode := "732303"
  first := 1700000010
  beforeSecond := scannedOnce
  secondCode := "136087"
  second := 1700000045
  beforeLast := scannedTwice
  completed := 1700000050

/-- The statement for that user. -/
theorem enrols_with_authenticator_sample :
    let lib := TotpLibrary.cppTotp "OpenWiFi" sampleSvg
    (scannedAttempt.Completes lib {} ↔ scannedAttempt.OpensFresh {}) ∧
      ∀ e, scannedAttempt.session lib {} = some e →
        cString e.secret = cString "12345678901234567890" := by
  intro lib
  have hissuer : Plain "OpenWiFi" := by
    unfold Plain
    decide
  have hemail : validEMailAddress scannedAttempt.user.email = true := by decide
  have htimely : Timely lib scannedAttempt {} :=
    { starts := by decide
      waitsFirst := .refl
      first := by decide
      waitsSecond := .refl
      second := by decide
      waitsLast := .refl
      last := by decide
      within := by decide }
  have hscans : Scans lib sampleRead scannedAttempt {} (cString "12345678901234567890") := by
    constructor
    case picture =>
      obtain ⟨text, hpicture, hkey⟩ := scannedKey_qrCode hissuer (plain_of_validEMailAddress hemail)
        sampleSvg "12345678901234567890"
      have hdrawn : scannedAttempt.picture lib {} = lib.generateQRCode
          (lib.toBase32 "12345678901234567890") scannedAttempt.user.email :=
        Storage.totpStartValidation_drawn rfl 1700000000 "12345678901234567890"
      rw [hdrawn, hpicture, sampleRead_sampleSvg, Option.bind_some, hkey]
    case first => exact displayed_sample.1.symm
    case second => exact displayed_sample.2.symm
    case differ => decide
  exact enrols_with_authenticator hissuer (.init atStart_empty)
    (fun text _ ↦ sampleRead_sampleSvg text) hemail htimely hscans

end Authenticator

end Enrolments

end OwSec
