import Mathlib.Data.Rat.Floor
import MiniPgw.Lib.Effects
import MiniPgw.Common

/-!
# JSON values

What the server uses of `nlohmann::json`. The library is not part of the repository: the accessors
below follow its documentation for `const` values, and its parser and printer are the parameter
`JsonLib`.

- An accessor throws a `std::exception` where the value has the wrong type, and a missing key is
  undefined behaviour.
- `dump` throws exactly where some string of the value is not UTF-8 (`JsonLib.DumpsUtf8`);
  `Json.isUtf8` is that check.
-/

namespace Pgw

/-! ## UTF-8

As much of UTF-8 as the printer checks: the lengths of the characters, and the ranges that exclude
overlong ones and surrogates. -/

/-- What may follow the leading byte of a character: how many bytes, and the range of the first of
them. -/
def continuation (lead : UInt8) : Option (Nat × UInt8 × UInt8) :=
  if lead ≤ 0x7F then some (0, 0x80, 0xBF)
  else if 0xC2 ≤ lead ∧ lead ≤ 0xDF then some (1, 0x80, 0xBF)
  -- no overlong form, no surrogate, nothing above U+10FFFF
  else if lead = 0xE0 then some (2, 0xA0, 0xBF)
  else if lead = 0xED then some (2, 0x80, 0x9F)
  else if 0xE1 ≤ lead ∧ lead ≤ 0xEF then some (2, 0x80, 0xBF)
  else if lead = 0xF0 then some (3, 0x90, 0xBF)
  else if 0xF1 ≤ lead ∧ lead ≤ 0xF3 then some (3, 0x80, 0xBF)
  else if lead = 0xF4 then some (3, 0x80, 0x8F)
  else none

/-- The rest of a text, where `owed` bytes of a character are missing and the first of these is
between `lo` and `hi`. -/
def isUtf8From : Nat → UInt8 → UInt8 → Bytes → Bool
  | owed, _, _, [] => owed == 0
  | 0, _, _, lead :: rest =>
    match continuation lead with
    | some (owed, lo, hi) => isUtf8From owed lo hi rest
    | none => false
  | owed + 1, lo, hi, b :: rest => lo ≤ b && b ≤ hi && isUtf8From owed 0x80 0xBF rest

def isUtf8 (s : Bytes) : Bool :=
  isUtf8From 0 0x80 0xBF s

/-! ## Values

`find`, `contains` and the conversions behave differently on values of the wrong type: some say no,
some throw, and one is undefined. -/

/-- A `nlohmann::json`. The fields of an object stand in the order of their keys, as in its
`std::map`; a finite `double` is a rational number. -/
inductive Json where
  | null
  | boolean (b : Bool)
  | numberInteger (n : Int)
  | numberUnsigned (n : Nat)
  | numberFloat (x : Rat)
  | string (s : Bytes)
  | array (elements : List Json)
  | object (fields : List (Bytes × Json))

namespace Json

/-- The value under a key of an object. -/
def find : Json → Bytes → Option Json
  | .object fields, key => fields.lookup key
  | _, _ => none

/-- `contains(key)`, which is `false` on anything but an object. -/
def contains (j : Json) (key : Bytes) : Bool :=
  (j.find key).isSome

def isObject : Json → Bool
  | .object _ => true
  | _ => false

def isString : Json → Bool
  | .string _ => true
  | _ => false

def isNumber : Json → Bool
  | .numberInteger _ | .numberUnsigned _ | .numberFloat _ => true
  | _ => false

section
variable {σ : Type}

/-- `operator[](key) const` -/
def index (j : Json) (key : Bytes) : EStateM Fault σ Json :=
  match j.find key with
  | some value => pure value
  | none => throw (if j.isObject then .undefined else .exception)

/-- `get<std::string>()` -/
def getString : Json → EStateM Fault σ Bytes
  | .string s => pure s
  | _ => throw .exception

/-- `get<size_t>()`: a `static_cast` from the type of the number. -/
def getSize : Json → EStateM Fault σ Nat
  | .numberInteger n => pure (n % 2 ^ 64).toNat
  | .numberUnsigned n => pure n
  | .numberFloat x => if -1 < x ∧ x < 2 ^ 64 then pure ⌊x⌋.toNat else throw .undefined
  | _ => throw .exception

/-- `get<uint16_t>()`: the same, and of a boolean too. -/
def getUInt16 : Json → EStateM Fault σ UInt16
  | .boolean b => pure (if b then 1 else 0)
  | .numberInteger n => pure (UInt16.ofInt n)
  | .numberUnsigned n => pure (UInt16.ofNat n)
  | .numberFloat x =>
    if -1 < x ∧ x < 2 ^ 16 then pure (UInt16.ofNat ⌊x⌋.toNat) else throw .undefined
  | _ => throw .exception

/-- `get<int64_t>()` -/
def getInt64 : Json → EStateM Fault σ Int
  | .numberInteger n => pure n
  | .numberUnsigned n => pure ((n : Int).bmod (2 ^ 64))
  | .numberFloat x =>
    if -2 ^ 63 - 1 < x ∧ x < 2 ^ 63 then pure (if 0 ≤ x then ⌊x⌋ else ⌈x⌉) else throw .undefined
  | _ => throw .exception

/-- `value(key, defaultValue)`; `get` converts to the type of the default. -/
def value {α : Type} (j : Json) (key : Bytes) (get : Json → EStateM Fault σ α) (defaultValue : α) :
    EStateM Fault σ α :=
  if j.isObject then
    match j.find key with
    | some found => get found
    | none => pure defaultValue
  else throw .exception

end

/-! ## Printing

The printer visits every string of a value and throws at the first that is not UTF-8. -/

mutual

/-- Every string of the value, keys included, is UTF-8. -/
def isUtf8 : Json → Bool
  | .string s => Pgw.isUtf8 s
  | .array elements => elementsUtf8 elements
  | .object fields => fieldsUtf8 fields
  | _ => true

def elementsUtf8 : List Json → Bool
  | [] => true
  | j :: elements => j.isUtf8 && elementsUtf8 elements

def fieldsUtf8 : List (Bytes × Json) → Bool
  | [] => true
  | (key, j) :: fields => Pgw.isUtf8 key && j.isUtf8 && fieldsUtf8 fields

end

@[simp] theorem isUtf8_null : isUtf8 .null = true := by
  simp [isUtf8]

@[simp] theorem isUtf8_numberInteger (n : Int) : isUtf8 (.numberInteger n) = true := by
  simp [isUtf8]

@[simp] theorem isUtf8_numberUnsigned (n : Nat) : isUtf8 (.numberUnsigned n) = true := by
  simp [isUtf8]

@[simp] theorem isUtf8_string (s : Bytes) : isUtf8 (.string s) = Pgw.isUtf8 s := by
  simp [isUtf8]

@[simp] theorem isUtf8_object_nil : isUtf8 (.object []) = true := by
  simp [isUtf8, fieldsUtf8]

@[simp] theorem isUtf8_object_cons (key : Bytes) (j : Json) (fields : List (Bytes × Json)) :
    isUtf8 (.object ((key, j) :: fields))
      = (Pgw.isUtf8 key && j.isUtf8 && isUtf8 (.object fields)) := by
  simp [isUtf8, fieldsUtf8]

@[simp] theorem isUtf8_array (elements : List Json) :
    isUtf8 (.array elements) = elements.all isUtf8 := by
  rw [isUtf8]
  induction elements with
  | nil => rfl
  | cons j elements ih => simp [elementsUtf8, ih]

end Json

/-! ## The library

The texts themselves are left to the library. What the program relies on is named where it is
used. -/

/-- The parser, which throws where there is no result, and the printer, which throws likewise. -/
structure JsonLib where
  parse : Bytes → Option Json
  dump : Json → Option Bytes

/-- `dump` throws exactly where a string is not UTF-8. -/
def JsonLib.DumpsUtf8 (json : JsonLib) : Prop :=
  ∀ j, (json.dump j).isSome = j.isUtf8

end Pgw
