import Mathlib.Algebra.Order.Ring.Int
import Mathlib.Data.Finset.Basic
import MiniPgw.Lib.Effects

/-!
# Types and constants shared by the whole server

`pgw/common/types.h`, `pgw/common/constants.h` and `pgw/common/validation.h`. A `std::string` is a
list of bytes; a point of `steady_clock` and a duration are numbers of nanoseconds.
-/

namespace Pgw

abbrev Bytes := List UInt8

/-- The bytes of an ASCII literal of the source. -/
def ascii (literal : String) : Bytes :=
  literal.toList.map fun c => UInt8.ofNat c.toNat

/-- `static_cast<int>` -/
def toInt (n : Int) : Int :=
  n.bmod (2 ^ 32)

/-- A count is kept by the cast exactly when it is an `int`. -/
theorem toInt_natCast_eq_iff (n : Nat) : toInt n = n ↔ n < 2 ^ 31 := by
  unfold toInt
  rw [Int.bmod_def]
  split <;> omega

/-- The cast never makes a count larger. -/
theorem toInt_natCast_le (n : Nat) : toInt n ≤ n := by
  unfold toInt
  rw [Int.bmod_def]
  split <;> omega

/-- The cast of an `int64_t` by way of `uint64_t`. -/
theorem toInt_emod (n : Int) : toInt (n % 2 ^ 64).toNat = toInt n := by
  unfold toInt
  rw [Int.bmod_def, Int.bmod_def]
  omega

/-- `imsi_t` -/
abbrev Imsi := Bytes

/-- `std::chrono::steady_clock::time_point`, and durations, in nanoseconds. -/
abbrev Time := Int

def seconds (n : Int) : Time := n * 1000000000

def milliseconds (n : Int) : Time := n * 1000000

/-- `std::unordered_set<imsi_t>` -/
abbrev Blacklist := Finset Imsi

/-- How a call ends that does not return. -/
inductive Fault where
  /-- A `std::exception` was thrown. -/
  | exception
  /-- Undefined behaviour, or a failed assertion: nothing can be caught any more. -/
  | undefined
  deriving DecidableEq, Repr

/-- `try { body } catch (const std::exception&) { handler }` -/
def catching {σ α : Type} (body handler : EStateM Fault σ α) : EStateM Fault σ α :=
  tryCatch body fun
    | .exception => handler
    | .undefined => throw .undefined

@[simp] theorem run_catching {σ α : Type} (body handler : EStateM Fault σ α) (s : σ) :
    EStateM.run (catching body handler) s =
      match EStateM.run body s with
      | .ok a t => .ok a t
      | .error .exception t => EStateM.run handler t
      | .error .undefined t => .error .undefined t := by
  rw [catching, Effects.run_tryCatch]
  cases EStateM.run body s with
  | ok a t => rfl
  | error e t => cases e <;> rfl

@[simp] theorem ensures_catching {σ α : Type} {Q : α → σ → Prop} {E : Fault → σ → Prop} {s : σ}
    (body handler : EStateM Fault σ α) :
    Effects.Ensures (catching body handler) s Q E ↔
      Effects.Ensures body s Q fun e t =>
        match e with
        | .exception => Effects.Ensures handler t Q E
        | .undefined => E .undefined t := by
  unfold Effects.Ensures
  rw [run_catching]
  cases EStateM.run body s with
  | ok a t => rfl
  | error e t => cases e <;> rfl

namespace Validation

def MIN_PORT : UInt16 := 1024

def MAX_PORT : UInt16 := 65535

def MIN_SESSION_TIMEOUT : Int := 0

def MIN_GRACEFUL_SHUTDOWN_RATE : Int := 0

def IMSI_LENGTH : Nat := 15

/-- `::isdigit` in the C locale. -/
def isdigit (c : UInt8) : Bool :=
  48 ≤ c && c ≤ 57

/-- `port_t` is `uint16_t`. -/
def isValidPort (port : UInt16) : Bool :=
  MIN_PORT < port && port ≤ MAX_PORT

def isValidImsi (imsi : Imsi) : Bool :=
  if imsi.length ≠ IMSI_LENGTH then false
  else if !imsi.all isdigit then false
  else true

def isValidSessionTimeout (timeout : Int) : Bool :=
  MIN_SESSION_TIMEOUT < timeout

/-- `rate_t` is `int64_t`. -/
def isValidGracefulShutdownRate (rate : Int) : Bool :=
  MIN_GRACEFUL_SHUTDOWN_RATE < rate

def isValidBlacklist (blacklist : Blacklist) : Bool :=
  ∀ imsi ∈ blacklist, isValidImsi imsi = true

end Validation
end Pgw
