import MiniPgw.Client.Client
import MiniPgw.Server.Config

/-!
# Config — the configuration of the client

`pgw/client/Config.cpp`: four members, read and checked as the server reads and checks its own. So a
client and a server that are given the same port number take the same port, also where it is not the
number that was given (`serverPort_eq_udpPort`).
-/

namespace Pgw

open Effects

structure ClientConfig where
  serverIp : Bytes
  serverPort : UInt16
  logFile : Bytes
  logLevel : Bytes
  error : Bytes
  verification : Bool

/-- An exception of the JSON library whose text is `what`. -/
def Thrown.ofFault (what : Bytes) : Fault → Thrown
  | .exception => .exception what
  | .undefined => .undefined

namespace ClientConfig

def SERVER_IP : Bytes := ascii "127.0.0.1"
def SERVER_PORT : UInt16 := 9000
def LOG_FILE : Bytes := ascii "client.log"
def LEVEL : Bytes := ascii "INFO"

abbrev Method := EStateM Thrown ClientConfig

/-- The members before the body of the constructor. -/
def uninitialised : ClientConfig where
  serverIp := []
  serverPort := 0
  logFile := []
  logLevel := []
  error := []
  verification := true

section
variable (json : JsonLib) (what : Bytes)

/-- `readConfigFile` from the first assignment on. -/
def readFields (jsonConfig : Json) : Method Unit := do
  let serverIp ← (jsonConfig.value (ascii "server_ip") Json.getString SERVER_IP).adaptExcept
    (Thrown.ofFault what)
  modify fun c => { c with serverIp := serverIp }
  let serverPort ← (jsonConfig.value (ascii "server_port") Json.getUInt16 SERVER_PORT).adaptExcept
    (Thrown.ofFault what)
  modify fun c => { c with serverPort := serverPort }
  let logFile ← (jsonConfig.value (ascii "log_file") Json.getString LOG_FILE).adaptExcept
    (Thrown.ofFault what)
  modify fun c => { c with logFile := logFile }
  let logLevel ← (jsonConfig.value (ascii "log_level") Json.getString LEVEL).adaptExcept
    (Thrown.ofFault what)
  modify fun c => { c with logLevel := logLevel }

/-- `file` is what the file holds, if it can be opened. -/
def readConfigFile (configPath : Bytes) (file : Option Bytes) : Method Unit :=
  match file with
  | none => throw (.exception (ascii "Connot open config file: " ++ configPath))
  | some text =>
    match json.parse text with
    | none => throw (.exception what)
    | some jsonConfig => readFields what jsonConfig

def validateConfigData : Method Unit := do
  let c ← get
  if !Validation.isValidPort c.serverPort then
    throw (.exception (ascii "Invalid UDP port: " ++ ascii (toString c.serverPort.toNat)))
  else pure ()

def setDefaultConfig : Method Unit :=
  modify fun c => { c with
    serverIp := SERVER_IP
    serverPort := SERVER_PORT
    logFile := LOG_FILE
    logLevel := LEVEL }

/-- The body of the constructor. -/
def construct (configPath : Bytes) (file : Option Bytes) : Method Unit :=
  tryCatch
    (do
      readConfigFile json what configPath file
      validateConfigData
      modify fun c => { c with verification := true })
    fun
    | .exception what => do
      modify fun c => { c with
        error := ascii "Config initialization failed: " ++ what
        verification := false }
      setDefaultConfig
    | .undefined => throw .undefined

/-- The configuration that the constructor leaves, unless its behaviour is undefined. -/
def constructed (configPath : Bytes) (file : Option Bytes) : Option ClientConfig :=
  match (construct json what configPath file).run uninitialised with
  | .ok _ config => some config
  | .error _ _ => none

end

def isValid (config : ClientConfig) : Bool :=
  config.verification

/-! ## All or nothing

The file is read as a whole or not at all: an exception puts the defaults into all members. -/

/-- The members are the defaults. -/
structure IsDefault (c : ClientConfig) : Prop where
  serverIp : c.serverIp = SERVER_IP
  serverPort : c.serverPort = SERVER_PORT
  logFile : c.logFile = LOG_FILE
  logLevel : c.logLevel = LEVEL

section
variable {json : JsonLib} {what configPath : Bytes} {c : ClientConfig}

theorem isValidPort_default : Validation.isValidPort SERVER_PORT = true := by
  decide

/-- **The port is one that the check accepts, whatever the file holds,** and of a file that is not
accepted nothing is left in the members. -/
theorem checked_of_constructed {file : Option Bytes}
    (h : constructed json what configPath file = some c) :
    Validation.isValidPort c.serverPort = true ∧ (c.isValid = false → c.IsDefault) := by
  have hensures : Ensures (construct json what configPath file) uninitialised
      (fun _ c' => Validation.isValidPort c'.serverPort = true ∧
        (c'.isValid = false → c'.IsDefault))
      fun _ _ => True := by
    rw [construct, ensures_tryCatch, ensures_bind]
    refine ensures_of_run (fun _ c' _ => ?_) fun e c' _ => ?_
    · simp only [validateConfigData, ensures_bind, ensures_get]
      cases hport : Validation.isValidPort c'.serverPort with
      | true => exact ⟨hport, Bool.noConfusion⟩
      | false => exact ⟨isValidPort_default, fun _ => ⟨rfl, rfl, rfl, rfl⟩⟩
    · cases e with
      | exception what => exact ⟨isValidPort_default, fun _ => ⟨rfl, rfl, rfl, rfl⟩⟩
      | undefined => trivial
  rw [constructed] at h
  split at h
  · next c' hrun =>
    cases h
    exact hensures.of_run_ok hrun
  · cases h

/-! ## The port that is given

For an object with the right types the port is the number that it gives, narrowed to 16 bits. -/

/-- The keys under which the configuration has a string. -/
def stringKeys : List Bytes :=
  ["server_ip", "log_file", "log_level"].map ascii

/-- An object whose fields have the types of the members. -/
structure WellTyped (j : Json) : Prop where
  isObject : j.isObject = true
  port : ∀ v, j.find (ascii "server_port") = some v → v.IsInteger64
  strings : ∀ key ∈ stringKeys, ∀ v, j.find key = some v → v.isString = true

/-- The number that an object gives for the port. -/
def givenPort (j : Json) : Option Int :=
  (j.find (ascii "server_port")).bind Json.integer

/-- The number in the type of the member, or the default. -/
def portOf (given : Option Int) : UInt16 :=
  match given with
  | some n => UInt16.ofInt n
  | none => SERVER_PORT

variable {j : Json}

theorem WellTyped.reads_string (hj : WellTyped j) (what key : Bytes) (hkey : key ∈ stringKeys)
    (defaultValue : Bytes) :
    ∃ s, (j.value key Json.getString defaultValue : EStateM Fault ClientConfig Bytes).adaptExcept
      (Thrown.ofFault what) = pure s := by
  unfold Json.value
  rw [if_pos hj.isObject]
  cases hfind : j.find key with
  | none => exact ⟨defaultValue, rfl⟩
  | some v =>
    have hstring := hj.strings key hkey v hfind
    cases v with
    | string s => exact ⟨s, rfl⟩
    | _ => cases hstring

theorem WellTyped.reads_port (hj : WellTyped j) (what : Bytes) :
    (j.value (ascii "server_port") Json.getUInt16 SERVER_PORT :
      EStateM Fault ClientConfig UInt16).adaptExcept (Thrown.ofFault what)
        = pure (portOf (givenPort j)) := by
  unfold Json.value givenPort
  rw [if_pos hj.isObject]
  cases hfind : j.find (ascii "server_port") with
  | none => rfl
  | some v =>
    have hinteger := hj.port v hfind
    cases v with
    | numberInteger n => rfl
    | numberUnsigned n =>
      have hsame : UInt16.ofNat n = UInt16.ofInt n :=
        UInt16.toNat_inj.mp (Int.ofNat_inj.mp (IntegerField.toNat_ofNat n))
      exact congrArg (pure : UInt16 → Method UInt16) hsame
    | _ => cases hinteger

theorem readFields_returns (hj : WellTyped j) (what : Bytes) (c : ClientConfig) :
    Returns (readFields what j) c fun _ c' => c'.serverPort = portOf (givenPort j) := by
  obtain ⟨serverIp, hserverIp⟩ := hj.reads_string what (ascii "server_ip") (by decide) SERVER_IP
  obtain ⟨logFile, hlogFile⟩ := hj.reads_string what (ascii "log_file") (by decide) LOG_FILE
  obtain ⟨logLevel, hlogLevel⟩ := hj.reads_string what (ascii "log_level") (by decide) LEVEL
  simp only [readFields, hserverIp, hj.reads_port what, hlogFile, hlogLevel, ensures_bind,
    ensures_pure, ensures_modify]

/-- **The constructor on a well-typed object** is valid exactly when the narrowed number passes. -/
theorem constructed_wellTyped (json : JsonLib) (what configPath text : Bytes)
    (hparse : json.parse text = some j) (hj : WellTyped j) :
    ∃ config, constructed json what configPath (some text) = some config ∧
      config.isValid = Validation.isValidPort (portOf (givenPort j)) ∧
      (config.isValid = true → config.serverPort = portOf (givenPort j)) := by
  have hreturns : Returns (construct json what configPath (some text)) uninitialised
      fun _ config => config.isValid = Validation.isValidPort (portOf (givenPort j)) ∧
        (config.isValid = true → config.serverPort = portOf (givenPort j)) := by
    rw [construct, Returns, ensures_tryCatch, ensures_bind]
    simp only [readConfigFile, hparse]
    refine (readFields_returns hj what _).mono (fun _ c hport => ?_) fun _ _ he => he.elim
    simp only [validateConfigData, ensures_bind, ensures_get]
    rw [← hport]
    cases hvalid : Validation.isValidPort c.serverPort with
    | true => exact ⟨rfl, fun _ => rfl⟩
    | false => exact ⟨rfl, Bool.noConfusion⟩
  obtain ⟨_, config, hrun, hconfig⟩ := (returns_iff _).mp hreturns
  exact ⟨config, by rw [constructed, hrun], hconfig⟩

/-! ## The port of the server

Both programs read their port in the same way, so the same number in both files is the same port,
even where it is narrowed. -/

/-- Both defaults are the same port, and both numbers are narrowed in the same way. -/
theorem portOf_given (j : Json) :
    ((portOf (IntegerField.udp_port.given j)).toNat : Int) = IntegerField.udp_port.read j := by
  unfold IntegerField.read portOf
  cases IntegerField.udp_port.given j with
  | none => rfl
  | some n => rfl

/-- **A client that is given the port number of a server finds it.** Where the files give the same
number, or none, and the server accepts its configuration, the client accepts its own and sends to
the port that the server listens on. -/
theorem serverPort_eq_udpPort (json : JsonLib)
    {what what' configPath configPath' text text' : Bytes}
    {j' : Json} (hserver : json.parse text = some j) (hj : Config.WellTyped j)
    (hclient : json.parse text' = some j') (hj' : WellTyped j')
    (hsame : givenPort j' = IntegerField.udp_port.given j) :
    ∃ server client, Config.constructed json what configPath (some text) = some server ∧
      constructed json what' configPath' (some text') = some client ∧
      (server.isValid = true → client.isValid = true ∧ client.serverPort = server.udpPort) := by
  obtain ⟨server, hconstructed, -, hread⟩ :=
    Config.constructed_wellTyped json what configPath text hserver hj
  obtain ⟨client, hconstructed', hvalid', hport'⟩ :=
    constructed_wellTyped json what' configPath' text' hclient hj'
  refine ⟨server, client, hconstructed, hconstructed', fun hvalid => ?_⟩
  have hudp : server.udpPort = portOf (givenPort j') := by
    have hgiven : (server.udpPort.toNat : Int) = IntegerField.udp_port.read j :=
      (hread hvalid).1 .udp_port
    rw [hsame]
    exact UInt16.toNat_inj.mp (Int.ofNat_inj.mp (hgiven.trans (portOf_given j).symm))
  -- the server has checked this very port
  have hchecked : Validation.isValidPort server.udpPort = true :=
    (Config.checked_of_isValid hconstructed hvalid).integers .udp_port
  have hclientValid : client.isValid = true := by
    rw [hvalid', ← hudp]
    exact hchecked
  exact ⟨hclientValid, (hport' hclientValid).trans hudp.symm⟩

end
end ClientConfig
end Pgw
