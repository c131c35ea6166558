import MiniPgw.Json

/-!
# Config — the configuration of the server

`pgw/server/Config.cpp`. The file is read into the members, the members are checked, and whatever
is thrown on the way leaves the defaults. `what` is the text of the exception if the JSON library
throws one.

Every number is narrowed to the type of its member before it is checked. `acceptsExactly_iff` says
for which objects the checks come to the same as on the given numbers.

## The architecture

* **`readFields`**, **`validateConfigData`**, **`construct`** — the constructor, over a JSON
  library of which only the parsing is a parameter.
* **`IntegerField`** — the five numbers, each with its key, its member and its check, so that what
  is said of one is said of all: `read_of_some`, `check_of_read`, `keeps_of_inRange`.
* **`WellTyped`**, **`readFields_returns`** — on a well-typed object nothing throws before the
  checks.
* **`validateConfigData_ensures`** — the checks throw or leave everything as it is.
* **`constructed_wellTyped`** — the constructor as a statement about the five numbers, from which
  `acceptsExactly_iff` is arithmetic.
-/

namespace Pgw

open Effects

namespace Constants

def UDP_IP : Bytes := ascii "0.0.0.0"
def UDP_PORT : UInt16 := 9000
def TCP_IP : Bytes := ascii "0.0.0.0"
def TCP_PORT : UInt16 := 9090
def HTTP_PORT : UInt16 := 8080
def TIMEOUT_SEC : Nat := 30
def GRACEFUL_SHUTDOWN_RATE : Int := 10
def DATABASE_FILE : Bytes := ascii ""
def CDR_FILE : Bytes := ascii "cdr.log"
def LOG_FILE : Bytes := ascii "pgw.log"
def LEVEL : Bytes := ascii "INFO"

end Constants

open Constants

/-- How the constructor leaves its `try` block early. -/
inductive Thrown where
  | exception (what : Bytes)
  | undefined
  deriving DecidableEq, Repr

/-- The members of `Config`. -/
structure Config where
  udpIp : Bytes
  udpPort : UInt16
  tcpIp : Bytes
  tcpPort : UInt16
  /-- In seconds. -/
  sessionTimeoutSec : Int
  databaseFile : Bytes
  cdrFile : Bytes
  httpPort : UInt16
  gracefulShutdownRate : Int
  logFile : Bytes
  logLevel : Bytes
  blackList : Blacklist
  error : Bytes
  verification : Bool

namespace Config

/-- A step of the constructor. -/
abbrev Method := EStateM Thrown Config

/-- The members before the body of the constructor. -/
def uninitialised : Config where
  udpIp := []
  udpPort := 0
  tcpIp := []
  tcpPort := 0
  sessionTimeoutSec := 0
  databaseFile := []
  cdrFile := []
  httpPort := 0
  gracefulShutdownRate := 0
  logFile := []
  logLevel := []
  blackList := ∅
  error := []
  verification := true

section
variable (json : JsonLib) (what : Bytes)

/-- A call of the JSON library. -/
def library {α : Type} (call : EStateM Fault Config α) : Method α := do
  let c ← get
  match call.run c with
  | .ok a _ => pure a
  | .error .exception _ => throw (.exception what)
  | .error .undefined _ => throw .undefined

/-- The loop over the elements of `"blacklist"`. -/
def readBlacklist : List Json → Method Unit
  | [] => pure ()
  | imsi :: rest => do
    let imsi ← library what imsi.getString
    modify fun c => { c with blackList := insert imsi c.blackList }
    readBlacklist rest

/-- `readConfigFile` from the first assignment on. -/
def readFields (jsonConfig : Json) : Method Unit := do
  let udpIp ← library what (jsonConfig.value (ascii "udp_ip") Json.getString UDP_IP)
  modify fun c => { c with udpIp := udpIp }
  let udpPort ← library what (jsonConfig.value (ascii "udp_port") Json.getUInt16 UDP_PORT)
  modify fun c => { c with udpPort := udpPort }
  let tcpIp ← library what (jsonConfig.value (ascii "tcp_ip") Json.getString TCP_IP)
  modify fun c => { c with tcpIp := tcpIp }
  let tcpPort ← library what (jsonConfig.value (ascii "tcp_port") Json.getUInt16 TCP_PORT)
  modify fun c => { c with tcpPort := tcpPort }
  -- the default is an `uint64_t`, the variable an `int`
  let timeoutSec ← library what
    (jsonConfig.value (ascii "session_timeout_sec") Json.getSize TIMEOUT_SEC)
  modify fun c => { c with sessionTimeoutSec := toInt timeoutSec }
  let databaseFile ← library what
    (jsonConfig.value (ascii "database_file") Json.getString DATABASE_FILE)
  modify fun c => { c with databaseFile := databaseFile }
  let cdrFile ← library what (jsonConfig.value (ascii "cdr_file") Json.getString CDR_FILE)
  modify fun c => { c with cdrFile := cdrFile }
  let httpPort ← library what (jsonConfig.value (ascii "http_port") Json.getUInt16 HTTP_PORT)
  modify fun c => { c with httpPort := httpPort }
  let gracefulShutdownRate ← library what
    (jsonConfig.value (ascii "graceful_shutdown_rate") Json.getInt64 GRACEFUL_SHUTDOWN_RATE)
  modify fun c => { c with gracefulShutdownRate := gracefulShutdownRate }
  let logFile ← library what (jsonConfig.value (ascii "log_file") Json.getString LOG_FILE)
  modify fun c => { c with logFile := logFile }
  let logLevel ← library what (jsonConfig.value (ascii "log_level") Json.getString LEVEL)
  modify fun c => { c with logLevel := logLevel }
  -- anything but an array is passed over
  match jsonConfig.find (ascii "blacklist") with
  | some (.array elements) => readBlacklist what elements
  | _ => pure ()

/-- `file` is what the file holds, if it can be opened. -/
def readConfigFile (configPath : Bytes) (file : Option Bytes) : Method Unit :=
  match file with
  | none => throw (.exception (ascii "Connot open config file: " ++ configPath))
  | some text =>
    match json.parse text with
    | none => throw (.exception what)
    | some jsonConfig => readFields what jsonConfig

/-- One check of `validateConfigData`. -/
def validate (valid : Bool) (what : Bytes) : Method Unit :=
  if valid then pure () else throw (.exception what)

/-- `validateConfigData`: the checks in their order, each with the text of its exception. -/
def validateConfigData : Method Unit := do
  let c ← get
  validate (Validation.isValidPort c.udpPort)
    (ascii "Invalid UDP port: " ++ ascii (toString c.udpPort.toNat))
  validate (Validation.isValidPort c.tcpPort)
    (ascii "Invalid TCP port: " ++ ascii (toString c.tcpPort.toNat))
  validate (Validation.isValidPort c.httpPort)
    (ascii "Invalid HTTP port: " ++ ascii (toString c.httpPort.toNat))
  validate (Validation.isValidSessionTimeout c.sessionTimeoutSec)
    (ascii "Invalid session timeout: " ++ ascii (toString c.sessionTimeoutSec))
  validate (Validation.isValidGracefulShutdownRate c.gracefulShutdownRate)
    (ascii "Invalid shutdown rate: " ++ ascii (toString c.gracefulShutdownRate))
  validate (Validation.isValidBlacklist c.blackList) (ascii "Invalid IMSI in blacklist")

/-- `setDefaultConfig`: the members that the constructor sets when the file is of no use. -/
def setDefaultConfig : Method Unit :=
  modify fun c => { c with
    udpIp := UDP_IP
    udpPort := UDP_PORT
    tcpIp := TCP_IP
    tcpPort := TCP_PORT
    sessionTimeoutSec := TIMEOUT_SEC
    databaseFile := DATABASE_FILE
    cdrFile := CDR_FILE
    httpPort := HTTP_PORT
    gracefulShutdownRate := GRACEFUL_SHUTDOWN_RATE
    logFile := LOG_FILE
    logLevel := LEVEL
    blackList := ∅ }

/-- The body of the constructor. -/
def construct (configPath : Bytes) (file : Option Bytes) : Method Unit :=
  tryCatch
    (do
      readConfigFile json what configPath file
      validateConfigData
      modify fun c => { c with verification := true })
    fun
    | .exception what => do
      modify fun c => { c with
        error := ascii "Config initialization failed: " ++ what
        verification := false }
      setDefaultConfig
    | .undefined => throw .undefined

/-- The configuration that the constructor leaves, unless its behaviour is undefined. -/
def constructed (configPath : Bytes) (file : Option Bytes) : Option Config :=
  match (construct json what configPath file).run uninitialised with
  | .ok _ config => some config
  | .error _ _ => none

end

/-- `isValid()` -/
def isValid (config : Config) : Bool :=
  config.verification

end Config

/-! ## The numbers of a configuration

Each number is read as a JSON integer, narrowed to the type of its member, and checked as it is
then. One table describes all five fields, so that the lemmas are stated once. -/

namespace Json

/-- The integer that a value holds. -/
def integer : Json → Option Int
  | .numberInteger n => some n
  | .numberUnsigned n => some n
  | _ => none

/-- The value is an integer of 64 bits, signed or unsigned. -/
def IsInteger64 : Json → Prop
  | .numberInteger n => -2 ^ 63 ≤ n ∧ n < 2 ^ 63
  | .numberUnsigned n => n < 2 ^ 64
  | _ => False

end Json

/-- The keys under which the configuration has an integer. -/
inductive IntegerField where
  | udp_port
  | tcp_port
  | http_port
  | session_timeout_sec
  | graceful_shutdown_rate
  deriving DecidableEq, Repr

namespace IntegerField

/-- The key of the field. -/
def key : IntegerField → Bytes
  | .udp_port => ascii "udp_port"
  | .tcp_port => ascii "tcp_port"
  | .http_port => ascii "http_port"
  | .session_timeout_sec => ascii "session_timeout_sec"
  | .graceful_shutdown_rate => ascii "graceful_shutdown_rate"

/-- What the getter of the member returns. -/
def get (config : Config) : IntegerField → Int
  | .udp_port => config.udpPort.toNat
  | .tcp_port => config.tcpPort.toNat
  | .http_port => config.httpPort.toNat
  | .session_timeout_sec => config.sessionTimeoutSec
  | .graceful_shutdown_rate => config.gracefulShutdownRate

/-- What the member gets when the key is missing. -/
def defaultValue : IntegerField → Int
  | .udp_port => UDP_PORT.toNat
  | .tcp_port => TCP_PORT.toNat
  | .http_port => HTTP_PORT.toNat
  | .session_timeout_sec => TIMEOUT_SEC
  | .graceful_shutdown_rate => GRACEFUL_SHUTDOWN_RATE

/-- The number in the type of its member. -/
def narrowed : IntegerField → Int → Int
  | .udp_port, n | .tcp_port, n | .http_port, n => (UInt16.ofInt n).toNat
  | .session_timeout_sec, n => toInt n
  | .graceful_shutdown_rate, n => n.bmod (2 ^ 64)

/-- The check of the member, on the narrowed number. -/
def passes : IntegerField → Int → Bool
  | .udp_port, n | .tcp_port, n | .http_port, n => Validation.isValidPort (UInt16.ofInt n)
  | .session_timeout_sec, n => Validation.isValidSessionTimeout (toInt n)
  | .graceful_shutdown_rate, n => Validation.isValidGracefulShutdownRate (n.bmod (2 ^ 64))

/-- The range that is meant. -/
def InRange : IntegerField → Int → Prop
  | .udp_port, n | .tcp_port, n | .http_port, n => 1024 < n ∧ n ≤ 65535
  | .session_timeout_sec, n => 0 < n ∧ n < 2 ^ 31
  | .graceful_shutdown_rate, n => 0 < n ∧ n < 2 ^ 63

/-- The number that an object gives under the key. -/
def given (f : IntegerField) (j : Json) : Option Int :=
  (j.find f.key).bind Json.integer

/-- What is read into the member. -/
def read (f : IntegerField) (j : Json) : Int :=
  match f.given j with
  | some n => f.narrowed n
  | none => f.defaultValue

/-- The check of the member. -/
def check (config : Config) : IntegerField → Bool
  | .udp_port => Validation.isValidPort config.udpPort
  | .tcp_port => Validation.isValidPort config.tcpPort
  | .http_port => Validation.isValidPort config.httpPort
  | .session_timeout_sec => Validation.isValidSessionTimeout config.sessionTimeoutSec
  | .graceful_shutdown_rate =>
    Validation.isValidGracefulShutdownRate config.gracefulShutdownRate

section
variable {f : IntegerField} {n : Int} {config : Config}

/-- An integer in the type of a port is taken modulo 2^16, -/
theorem toNat_ofInt (n : Int) : ((UInt16.ofInt n).toNat : Int) = n % 2 ^ 16 := by
  have hmod := Int.emod_nonneg n (b := 2 ^ 16) (by decide)
  have hlt := Int.emod_lt_of_pos n (b := 2 ^ 16) (by decide)
  rw [UInt16.ofInt, UInt16.toNat_ofNat']
  omega

/-- whether the file has it as signed or as unsigned. -/
theorem toNat_ofNat (n : Nat) : ((UInt16.ofNat n).toNat : Int) = (UInt16.ofInt n).toNat := by
  rw [toNat_ofInt, UInt16.toNat_ofNat']
  exact Int.natCast_emod n (2 ^ 16)

/-- A missing key reads as the default, -/
theorem read_of_none {j : Json} (h : j.find f.key = none) : f.read j = f.defaultValue := by
  rw [read, given, h, Option.bind_none]

/-- and an integer as what is left of it in the type of the member. -/
theorem read_of_some {j v : Json} (h : j.find f.key = some v) (hn : v.integer = some n) :
    f.read j = f.narrowed n := by
  rw [read, given, h, Option.bind_some, hn]

/-- The upper bound of a port is that of its type, so that only the lower one is a check. -/
theorem isValidPort_iff (port : UInt16) :
    Validation.isValidPort port = true ↔ 1024 < port.toNat := by
  have hlt := port.toNat_lt
  simp only [Validation.isValidPort, Validation.MIN_PORT, Validation.MAX_PORT, Bool.and_eq_true,
    decide_eq_true_eq, UInt16.lt_iff_toNat_lt, UInt16.le_iff_toNat_le]
  show 1024 < port.toNat ∧ port.toNat ≤ 65535 ↔ 1024 < port.toNat
  omega

/-- The number passes its check, as an inequality. -/
theorem passes_iff : f.passes n = true ↔
    match f with
    | .udp_port | .tcp_port | .http_port => 1024 < n % 2 ^ 16
    | .session_timeout_sec => 0 < n.bmod (2 ^ 32)
    | .graceful_shutdown_rate => 0 < n.bmod (2 ^ 64) := by
  have hport : Validation.isValidPort (UInt16.ofInt n) = true ↔ 1024 < n % 2 ^ 16 := by
    rw [isValidPort_iff, ← toNat_ofInt]
    omega
  cases f with
  | udp_port => exact hport
  | tcp_port => exact hport
  | http_port => exact hport
  | session_timeout_sec => exact decide_eq_true_iff
  | graceful_shutdown_rate => exact decide_eq_true_iff

/-- A number in range keeps its value and passes. -/
theorem keeps_of_inRange (h : f.InRange n) : f.narrowed n = n ∧ f.passes n = true := by
  rw [passes_iff]
  cases f with
  | udp_port | tcp_port | http_port =>
    obtain ⟨hlow, hhigh⟩ := h
    have hsame : n % 2 ^ 16 = n := Int.emod_eq_of_lt (by omega) (by omega)
    exact ⟨(toNat_ofInt n).trans hsame, hsame.symm ▸ hlow⟩
  | session_timeout_sec =>
    obtain ⟨hlow, hhigh⟩ := h
    have hsame : n.bmod (2 ^ 32) = n := Int.bmod_eq_of_le (by omega) (by omega)
    exact ⟨hsame, hsame.symm ▸ hlow⟩
  | graceful_shutdown_rate =>
    obtain ⟨hlow, hhigh⟩ := h
    have hsame : n.bmod (2 ^ 64) = n := Int.bmod_eq_of_le (by omega) (by omega)
    exact ⟨hsame, hsame.symm ▸ hlow⟩

/-- A number that keeps its value and passes is in range. -/
theorem inRange_of_keeps (hsame : f.narrowed n = n) (hpasses : f.passes n = true) :
    f.InRange n := by
  rw [passes_iff] at hpasses
  cases f with
  | udp_port | tcp_port | http_port =>
    have hmod : n % 2 ^ 16 = n := (toNat_ofInt n).symm.trans hsame
    have hlt := Int.emod_lt_of_pos n (b := 2 ^ 16) (by decide)
    rw [hmod] at hpasses hlt
    exact ⟨hpasses, Int.le_of_lt_add_one hlt⟩
  | session_timeout_sec =>
    have hmod : n.bmod (2 ^ 32) = n := hsame
    have hlt : n.bmod (2 ^ 32) < 2 ^ 31 := Int.bmod_lt (by decide)
    rw [hmod] at hpasses hlt
    exact ⟨hpasses, hlt⟩
  | graceful_shutdown_rate =>
    have hmod : n.bmod (2 ^ 64) = n := hsame
    have hlt : n.bmod (2 ^ 64) < 2 ^ 63 := Int.bmod_lt (by decide)
    rw [hmod] at hpasses hlt
    exact ⟨hpasses, hlt⟩

/-- The check of a member that holds a narrowed number. -/
theorem check_of_narrowed (h : f.get config = f.narrowed n) : f.check config = f.passes n := by
  cases f with
  | udp_port | tcp_port | http_port =>
    exact congrArg Validation.isValidPort (UInt16.toNat_inj.mp (Int.ofNat_inj.mp h))
  | session_timeout_sec => exact congrArg Validation.isValidSessionTimeout h
  | graceful_shutdown_rate => exact congrArg Validation.isValidGracefulShutdownRate h

/-- **Every default passes its check.** -/
theorem check_of_default (h : f.get config = f.defaultValue) : f.check config = true := by
  cases f with
  | udp_port | tcp_port | http_port =>
    have hport := UInt16.toNat_inj.mp (Int.ofNat_inj.mp h)
    rw [check, hport]
    decide
  | session_timeout_sec =>
    have htimeout : config.sessionTimeoutSec = TIMEOUT_SEC := h
    rw [check, htimeout]
    decide
  | graceful_shutdown_rate =>
    have hrate : config.gracefulShutdownRate = GRACEFUL_SHUTDOWN_RATE := h
    rw [check, hrate]
    decide

/-- The check of a member that has been read. -/
theorem check_of_read {j : Json} (h : f.get config = f.read j) :
    f.check config = true ↔ ∀ n, f.given j = some n → f.passes n = true := by
  rw [read] at h
  cases hgiven : f.given j with
  | none =>
    rw [hgiven] at h
    exact iff_of_true (check_of_default h) fun n hn => by cases hn
  | some n =>
    rw [hgiven] at h
    rw [check_of_narrowed h]
    constructor
    · rintro hpasses m ⟨⟩
      exact hpasses
    · exact fun hall => hall n rfl

end
end IntegerField

namespace Config

/-- The keys under which the configuration has a string. -/
def stringKeys : List Bytes :=
  ["udp_ip", "tcp_ip", "database_file", "cdr_file", "log_file", "log_level"].map ascii

/-- An object whose fields have the types of the members, and whose blacklist is one of IMSIs. -/
structure WellTyped (j : Json) : Prop where
  isObject : j.isObject = true
  integers : ∀ (f : IntegerField) v, j.find f.key = some v → v.IsInteger64
  strings : ∀ key ∈ stringKeys, ∀ v, j.find key = some v → v.isString = true
  blacklist : ∀ v, j.find (ascii "blacklist") = some v → ∃ imsis : List Imsi,
    v = .array (imsis.map .string) ∧ ∀ imsi ∈ imsis, Validation.isValidImsi imsi = true

/-- The strings of the blacklist that an object gives. -/
def givenBlacklist (j : Json) : List Imsi :=
  match j.find (ascii "blacklist") with
  | some (.array elements) => elements.filterMap fun
    | .string imsi => some imsi
    | _ => none
  | _ => []

/-! ## Reading

Reading stops at the first exception. An object whose values have the right types causes none,
whatever its numbers are. -/

section
variable {what : Bytes} {j : Json} {c : Config}

/-- A call of the library that returns. -/
@[simp] theorem library_pure {α : Type} (a : α) : library what (pure a) = pure a := rfl

/-- `value` on an object takes what is there, or the default. -/
theorem WellTyped.value_eq (hj : WellTyped j) {σ α : Type} (key : Bytes)
    (get : Json → EStateM Fault σ α) (defaultValue : α) :
    j.value key get defaultValue =
      match j.find key with
      | some found => get found
      | none => pure defaultValue := by
  unfold Json.value
  exact if_pos hj.isObject

/-- A text is read without an exception, -/
theorem WellTyped.reads_string (hj : WellTyped j) (what key : Bytes) (hkey : key ∈ stringKeys)
    (defaultValue : Bytes) :
    ∃ s, library what (j.value key Json.getString defaultValue) = pure s := by
  rw [hj.value_eq]
  cases hfind : j.find key with
  | none => exact ⟨defaultValue, rfl⟩
  | some v =>
    have hstring := hj.strings key hkey v hfind
    cases v with
    | string s => exact ⟨s, rfl⟩
    | _ => cases hstring

/-- a port as its number modulo 2^16, -/
theorem WellTyped.reads_port (hj : WellTyped j) (what : Bytes) (f : IntegerField)
    (hf : f.narrowed = fun n => ((UInt16.ofInt n).toNat : Int)) (defaultValue : UInt16)
    (hdefault : f.defaultValue = defaultValue.toNat) :
    ∃ port, library what (j.value f.key Json.getUInt16 defaultValue) = pure port ∧
      (port.toNat : Int) = f.read j := by
  rw [hj.value_eq]
  cases hfind : j.find f.key with
  | none =>
    rw [IntegerField.read_of_none hfind]
    exact ⟨defaultValue, rfl, hdefault.symm⟩
  | some v =>
    have hinteger := hj.integers f v hfind
    cases v with
    | numberInteger n =>
      rw [IntegerField.read_of_some hfind rfl, hf]
      exact ⟨UInt16.ofInt n, rfl, rfl⟩
    | numberUnsigned n =>
      rw [IntegerField.read_of_some hfind rfl, hf]
      exact ⟨UInt16.ofNat n, rfl, IntegerField.toNat_ofNat n⟩
    | _ => cases hinteger

/-- the timeout as an `int`, although its default is an `uint64_t`, -/
theorem WellTyped.reads_timeout (hj : WellTyped j) (what : Bytes) :
    ∃ timeout, library what (j.value (ascii "session_timeout_sec") Json.getSize TIMEOUT_SEC)
        = pure timeout ∧ toInt timeout = IntegerField.session_timeout_sec.read j := by
  rw [hj.value_eq]
  cases hfind : j.find (ascii "session_timeout_sec") with
  | none =>
    rw [IntegerField.read_of_none hfind]
    exact ⟨TIMEOUT_SEC, rfl, by decide⟩
  | some v =>
    have hinteger := hj.integers .session_timeout_sec v hfind
    cases v with
    | numberInteger n =>
      rw [IntegerField.read_of_some (f := .session_timeout_sec) hfind rfl]
      exact ⟨_, rfl, toInt_emod n⟩
    | numberUnsigned n =>
      rw [IntegerField.read_of_some (f := .session_timeout_sec) hfind rfl]
      exact ⟨n, rfl, rfl⟩
    | _ => cases hinteger

/-- and the rate as an `int64_t`. -/
theorem WellTyped.reads_rate (hj : WellTyped j) (what : Bytes) :
    ∃ rate, library what
        (j.value (ascii "graceful_shutdown_rate") Json.getInt64 GRACEFUL_SHUTDOWN_RATE)
        = pure rate ∧ rate = IntegerField.graceful_shutdown_rate.read j := by
  rw [hj.value_eq]
  cases hfind : j.find (ascii "graceful_shutdown_rate") with
  | none =>
    rw [IntegerField.read_of_none hfind]
    exact ⟨GRACEFUL_SHUTDOWN_RATE, rfl, rfl⟩
  | some v =>
    have hinteger := hj.integers .graceful_shutdown_rate v hfind
    cases v with
    | numberInteger n =>
      have hrange : -2 ^ 63 ≤ n ∧ n < 2 ^ 63 := hinteger
      have hsame : n.bmod (2 ^ 64) = n := Int.bmod_eq_of_le (by omega) (by omega)
      rw [IntegerField.read_of_some (f := .graceful_shutdown_rate) hfind rfl]
      exact ⟨n, rfl, hsame.symm⟩
    | numberUnsigned n =>
      rw [IntegerField.read_of_some (f := .graceful_shutdown_rate) hfind rfl]
      exact ⟨_, rfl, rfl⟩
    | _ => cases hinteger

/-- The loop over the blacklist. Induction on what is left of the array. -/
theorem readBlacklist_returns (imsis : List Imsi) :
    ∀ c : Config, Returns (readBlacklist what (imsis.map .string)) c fun _ c' =>
      (∀ f : IntegerField, f.get c' = f.get c) ∧
        ∀ imsi, imsi ∈ c'.blackList ↔ imsi ∈ c.blackList ∨ imsi ∈ imsis := by
  induction imsis with
  | nil => exact fun c => ⟨fun _ => rfl, fun imsi => by simp⟩
  | cons first imsis ih =>
    intro c
    simp only [List.map_cons, readBlacklist, Json.getString, library_pure, pure_bind, ensures_bind,
      ensures_modify]
    refine (ih { c with blackList := insert first c.blackList }).mono (fun _ c' h => ?_)
      fun _ _ he => he
    obtain ⟨hget, hread⟩ := h
    refine ⟨fun f => (hget f).trans (by cases f <;> rfl), fun imsi => ?_⟩
    rw [hread imsi, Finset.mem_insert, List.mem_cons, or_assoc, or_left_comm]

/-- **Reading a well-typed object** puts the narrowed numbers into the members. -/
theorem readFields_returns (what : Bytes) (hj : WellTyped j) :
    Returns (readFields what j) uninitialised fun _ c =>
      (∀ f : IntegerField, f.get c = f.read j) ∧
        ∀ imsi, imsi ∈ c.blackList ↔ imsi ∈ givenBlacklist j := by
  obtain ⟨udpIp, hudpIp⟩ := hj.reads_string what (ascii "udp_ip") (by decide) UDP_IP
  obtain ⟨tcpIp, htcpIp⟩ := hj.reads_string what (ascii "tcp_ip") (by decide) TCP_IP
  obtain ⟨databaseFile, hdatabaseFile⟩ :=
    hj.reads_string what (ascii "database_file") (by decide) DATABASE_FILE
  obtain ⟨cdrFile, hcdrFile⟩ := hj.reads_string what (ascii "cdr_file") (by decide) CDR_FILE
  obtain ⟨logFile, hlogFile⟩ := hj.reads_string what (ascii "log_file") (by decide) LOG_FILE
  obtain ⟨logLevel, hlogLevel⟩ := hj.reads_string what (ascii "log_level") (by decide) LEVEL
  obtain ⟨udpPort, hudpPort, hudp⟩ := hj.reads_port what .udp_port rfl UDP_PORT rfl
  obtain ⟨tcpPort, htcpPort, htcp⟩ := hj.reads_port what .tcp_port rfl TCP_PORT rfl
  obtain ⟨httpPort, hhttpPort, hhttp⟩ := hj.reads_port what .http_port rfl HTTP_PORT rfl
  obtain ⟨timeout, htimeout, hsession⟩ := hj.reads_timeout what
  obtain ⟨rate, hrate, hshutdown⟩ := hj.reads_rate what
  simp only [IntegerField.key] at hudpPort htcpPort hhttpPort
  -- every field of a well-typed file is read without an exception
  simp only [readFields, hudpIp, htcpIp, hdatabaseFile, hcdrFile, hlogFile, hlogLevel, hudpPort,
    htcpPort, hhttpPort, htimeout, hrate, ensures_bind, ensures_pure, ensures_modify]
  have hread : ∀ c : Config, c.udpPort = udpPort → c.tcpPort = tcpPort → c.httpPort = httpPort →
      c.sessionTimeoutSec = toInt timeout → c.gracefulShutdownRate = rate →
      ∀ f : IntegerField, f.get c = f.read j := by
    rintro c rfl rfl rfl htimeout' rfl f
    cases f with
    | udp_port => exact hudp
    | tcp_port => exact htcp
    | http_port => exact hhttp
    | session_timeout_sec => exact htimeout'.trans hsession
    | graceful_shutdown_rate => exact hshutdown
  rw [givenBlacklist]
  cases hfind : j.find (ascii "blacklist") with
  | none =>
    refine ⟨?_, fun imsi => ?_⟩
    · apply hread <;> dsimp only
    · exact iff_of_false (Finset.notMem_empty imsi) List.not_mem_nil
  | some v =>
    obtain ⟨imsis, rfl, -⟩ := hj.blacklist v hfind
    refine (readBlacklist_returns imsis _).mono (fun _ c' h => ?_) fun _ _ he => he
    obtain ⟨hget, himsis⟩ := h
    refine ⟨fun f => (hget f).trans ?_, fun imsi => ?_⟩
    · apply hread <;> dsimp only
    · rw [himsis imsi]
      simp [uninitialised, List.filterMap_map]

/-- The blacklist of a well-typed object consists of valid IMSIs. -/
theorem WellTyped.givenBlacklist_valid (hj : WellTyped j) :
    ∀ imsi ∈ givenBlacklist j, Validation.isValidImsi imsi = true := by
  rw [givenBlacklist]
  cases hfind : j.find (ascii "blacklist") with
  | none => exact fun imsi h => absurd h List.not_mem_nil
  | some v =>
    obtain ⟨imsis, rfl, hvalid⟩ := hj.blacklist v hfind
    simpa [List.filterMap_map, Function.comp_def] using hvalid

/-! ## Checking

The checks come after the reading and see the members only, so they do not know what has been
narrowed away. -/

/-- What `validateConfigData` checks. -/
structure Checked (c : Config) : Prop where
  integers : ∀ f : IntegerField, f.check c = true
  blacklist : Validation.isValidBlacklist c.blackList = true

/-- A check passes, or throws its text. -/
theorem ensures_validate {Q : Unit → Config → Prop} {E : Thrown → Config → Prop} (valid : Bool) :
    Ensures (validate valid what) c Q E ↔
      (valid = true → Q () c) ∧ (valid = false → E (.exception what) c) := by
  cases valid <;> simp [validate]

/-- `validateConfigData` changes nothing, and throws unless all is valid. -/
theorem validateConfigData_ensures {Q : Unit → Config → Prop} {E : Thrown → Config → Prop}
    (hQ : c.Checked → Q () c) (hE : ¬ c.Checked → ∀ what, E (.exception what) c) :
    Ensures validateConfigData c Q E := by
  have hfails {f : IntegerField} {what : Bytes} (hf : f.check c = false) :
      E (.exception what) c :=
    hE (fun h => absurd ((h.integers f).symm.trans hf) (by decide)) what
  simp only [validateConfigData, ensures_bind, ensures_get, ensures_validate]
  refine ⟨fun hudp => ⟨fun htcp => ⟨fun hhttp => ⟨fun htimeout => ⟨fun hrate => ⟨fun hblacklist =>
    hQ ⟨fun f => ?_, hblacklist⟩, fun hblacklist => ?_⟩, ?_⟩, ?_⟩, ?_⟩, ?_⟩, ?_⟩
  · cases f with
    | udp_port => exact hudp
    | tcp_port => exact htcp
    | http_port => exact hhttp
    | session_timeout_sec => exact htimeout
    | graceful_shutdown_rate => exact hrate
  · exact hE (fun h => absurd (h.blacklist.symm.trans hblacklist) (by decide)) _
  · exact hfails (f := .graceful_shutdown_rate)
  · exact hfails (f := .session_timeout_sec)
  · exact hfails (f := .http_port)
  · exact hfails (f := .tcp_port)
  · exact hfails (f := .udp_port)

/-! ## The constructor

What is thrown on the way is caught. The members then get their defaults, and the configuration is
not valid. -/

variable {json : JsonLib} {configPath : Bytes}

/-- **A configuration that is valid has passed its checks,** whatever the file holds. -/
theorem checked_of_isValid {file : Option Bytes}
    (h : constructed json what configPath file = some c) (hvalid : c.isValid = true) :
    c.Checked := by
  have hensures : Ensures (construct json what configPath file) uninitialised
      (fun _ c' => c'.isValid = true → c'.Checked) fun _ _ => True := by
    rw [construct, ensures_tryCatch, ensures_bind]
    refine ensures_of_run (fun _ c' _ => ?_) fun e c' _ => ?_
    · rw [ensures_bind]
      exact validateConfigData_ensures (fun hchecked _ => ⟨hchecked.integers, hchecked.blacklist⟩)
        fun _ _ => Bool.noConfusion
    · cases e with
      | exception what => exact Bool.noConfusion
      | undefined => trivial
  rw [constructed] at h
  split at h
  · next c' hrun =>
    cases h
    exact hensures.of_run_ok hrun hvalid
  · cases h

/-- **The constructor on a well-typed object** is valid exactly when every number passes as it has
been narrowed, and then has the narrowed numbers and the given blacklist. -/
theorem constructed_wellTyped (json : JsonLib) (what configPath text : Bytes)
    (hparse : json.parse text = some j) (hj : WellTyped j) :
    ∃ config, constructed json what configPath (some text) = some config ∧
      (config.isValid = true ↔ ∀ (f : IntegerField) n, f.given j = some n → f.passes n = true) ∧
      (config.isValid = true → (∀ f : IntegerField, f.get config = f.read j) ∧
        ∀ imsi, imsi ∈ config.blackList ↔ imsi ∈ givenBlacklist j) := by
  have hreturns : Returns (construct json what configPath (some text)) uninitialised
      fun _ config =>
        (config.isValid = true ↔ ∀ (f : IntegerField) n, f.given j = some n → f.passes n = true) ∧
        (config.isValid = true → (∀ f : IntegerField, f.get config = f.read j) ∧
          ∀ imsi, imsi ∈ config.blackList ↔ imsi ∈ givenBlacklist j) := by
    rw [construct, Returns, ensures_tryCatch, ensures_bind]
    simp only [readConfigFile, hparse]
    refine (readFields_returns what hj).mono (fun _ c h => ?_) fun _ _ he => he.elim
    obtain ⟨hread, hblacklist⟩ := h
    -- a well-typed file lists valid IMSIs only
    have hvalid : Validation.isValidBlacklist c.blackList = true :=
      decide_eq_true fun imsi himsi => hj.givenBlacklist_valid imsi ((hblacklist imsi).mp himsi)
    have hchecked : c.Checked ↔
        ∀ (f : IntegerField) n, f.given j = some n → f.passes n = true := by
      constructor
      · exact fun h f => (IntegerField.check_of_read (hread f)).mp (h.integers f)
      · exact fun h => ⟨fun f => (IntegerField.check_of_read (hread f)).mpr (h f), hvalid⟩
    rw [ensures_bind]
    refine validateConfigData_ensures (fun h => ?_) fun h what => ?_
    · exact ⟨iff_of_true rfl (hchecked.mp h), fun _ => ⟨hread, hblacklist⟩⟩
    · exact ⟨iff_of_false Bool.false_ne_true (mt hchecked.mpr h), Bool.noConfusion⟩
  obtain ⟨_, config, hrun, hconfig⟩ := (returns_iff _).mp hreturns
  exact ⟨config, by rw [constructed, hrun], hconfig⟩

end

/-! ## Given and accepted

A number that changes when it is narrowed may still pass its check: the two conditions are compared
for every field. -/

/-- Every given number is in range. -/
def InRange (j : Json) : Prop :=
  ∀ (f : IntegerField) n, f.given j = some n → f.InRange n

/-- The configuration is valid exactly when the numbers are in range, and then has the numbers
themselves. -/
structure AcceptsExactly (config : Config) (j : Json) : Prop where
  valid_iff : config.isValid = true ↔ InRange j
  literal : config.isValid = true →
    ∀ f : IntegerField, f.get config = (f.given j).getD f.defaultValue

/-- **When a configuration is accepted exactly and taken literally:** no number changes when it is
narrowed, or one of them fails its check all the same. -/
theorem acceptsExactly_iff (json : JsonLib) (what configPath text : Bytes) {j : Json}
    (hparse : json.parse text = some j) (hj : WellTyped j) :
    (∃ config, constructed json what configPath (some text) = some config ∧
      AcceptsExactly config j) ↔
      (∀ (f : IntegerField) n, f.given j = some n → f.narrowed n = n) ∨
        ∃ (f : IntegerField) (n : Int), f.given j = some n ∧ f.passes n = false := by
  obtain ⟨config, hconfig, hvalid, hread⟩ :=
    constructed_wellTyped json what configPath text hparse hj
  have hrange : InRange j → ∀ (f : IntegerField) n, f.given j = some n →
      f.narrowed n = n ∧ f.passes n = true :=
    fun h f n hn => IntegerField.keeps_of_inRange (h f n hn)
  constructor
  · rintro ⟨config', hconfig', hexact⟩
    cases hconfig.symm.trans hconfig'
    refine or_iff_not_imp_right.mpr fun hnone f n hn => ?_
    have hpasses : ∀ (f : IntegerField) n, f.given j = some n → f.passes n = true := by
      intro f n hn
      by_contra hfails
      exact hnone ⟨f, n, hn, Bool.eq_false_iff.mpr hfails⟩
    exact (hrange (hexact.valid_iff.mp (hvalid.mpr hpasses)) f n hn).1
  · intro h
    -- where every number passes, none has changed
    have hsame : config.isValid = true →
        ∀ (f : IntegerField) n, f.given j = some n → f.narrowed n = n := by
      intro hok
      rcases h with hsame | ⟨f, n, hn, hfails⟩
      · exact hsame
      · exact absurd ((hvalid.mp hok f n hn).symm.trans hfails) (by decide)
    refine ⟨config, hconfig, ⟨fun hok f n hn => ?_, fun h => ?_⟩, fun hok f => ?_⟩
    · exact IntegerField.inRange_of_keeps (hsame hok f n hn) (hvalid.mp hok f n hn)
    · exact hvalid.mpr fun f n hn => (hrange h f n hn).2
    · rw [(hread hok).1 f, IntegerField.read]
      cases hgiven : f.given j with
      | none => rfl
      | some n => exact hsame hok f n hgiven

/-- The object that gives only a port, and its text. -/
def udpPortOnly (n : Nat) : Json := .object [(ascii "udp_port", .numberUnsigned n)]

/-- A configuration file with one key. -/
def udpPortText (n : Nat) : Bytes := ascii ("\x7b\"udp_port\": " ++ toString n ++ "\x7d")

/-- The JSON library, as far as this text goes. -/
def udpPortJson (n : Nat) : JsonLib where
  parse text := if text = udpPortText n then some (udpPortOnly n) else none
  dump _ := none

/-- The library reads that file as that object, -/
theorem parse_udpPortText (n : Nat) :
    (udpPortJson n).parse (udpPortText n) = some (udpPortOnly n) :=
  if_pos rfl

/-- whose one key has an integer. -/
theorem wellTyped_udpPortOnly {n : Nat} (hn : n < 2 ^ 64) : WellTyped (udpPortOnly n) where
  isObject := rfl
  integers := by
    intro f v hv
    cases f with
    | udp_port =>
      cases hv
      exact hn
    | _ => cases hv
  strings := by
    intro key hkey v hv
    have hother : ∀ key ∈ stringKeys, (key == ascii "udp_port") = false := by decide
    have hnone : (udpPortOnly n).find key = none := by
      simp [Json.find, udpPortOnly, List.lookup_cons, hother key hkey]
    rw [hnone] at hv
    cases hv
  blacklist := fun v hv => by cases hv

/-- The smallest port that the program accepts but one: the checks and the ranges agree. -/
theorem acceptsExactly_udpPort : ∃ config,
    constructed (udpPortJson 9001) [] (ascii "pgw.json") (some (udpPortText 9001)) = some config ∧
      AcceptsExactly config (udpPortOnly 9001) := by
  have hkept : ∀ (f : IntegerField) n, f.given (udpPortOnly 9001) = some n → f.narrowed n = n := by
    intro f n hn
    cases f with
    | udp_port =>
      cases hn
      decide
    | _ => cases hn
  exact (acceptsExactly_iff _ _ _ _ (parse_udpPortText 9001)
    (wellTyped_udpPortOnly (by decide))).mpr (.inl hkept)

/-- Port 70000 is taken for port 4464. -/
theorem not_acceptsExactly_udpPort : WellTyped (udpPortOnly 70000) ∧ ∃ config,
    constructed (udpPortJson 70000) [] (ascii "pgw.json") (some (udpPortText 70000)) = some config ∧
      config.isValid = true ∧ config.udpPort = 4464 ∧
        ¬ AcceptsExactly config (udpPortOnly 70000) := by
  have hj : WellTyped (udpPortOnly 70000) := wellTyped_udpPortOnly (by decide)
  obtain ⟨config, hconfig, hvalid, hread⟩ :=
    constructed_wellTyped (udpPortJson 70000) [] (ascii "pgw.json") (udpPortText 70000)
      (parse_udpPortText 70000) hj
  have hok : config.isValid = true := hvalid.mpr fun f n hn => by
    cases f with
    | udp_port =>
      cases hn
      decide
    | _ => cases hn
  refine ⟨hj, config, hconfig, hok, ?_, fun h => ?_⟩
  · exact UInt16.toNat_inj.mp (Int.ofNat_inj.mp ((hread hok).1 .udp_port))
  · have hrange : IntegerField.udp_port.InRange 70000 := h.valid_iff.mp hok .udp_port 70000 rfl
    exact absurd hrange.2 (by decide)

end Config
end Pgw
