import ScopedMemory.Error
import ScopedMemory.Text.Blank
import ScopedMemory.Text.Lowercase
import ScopedMemory.Text.Numeral

/-! Configuration of arenas and the policy on native access.

Both can be read from variables. A variable that is missing or makes no sense leaves the default
in place; each field depends on its own variable alone. -/
namespace ScopedMemory

/-- How an arena allocates. -/
structure ArenaConfig where
  /-- The largest single allocation. -/
  maxAllocation : Word := UInt64.ofNat (1 <<< 63 - 1)
  /-- New blocks are filled with zeros. -/
  zeroed : Bool := true
  /-- How often a close looks before it yields to the threads it waits for. -/
  spinLimit : UInt32 := 64
deriving DecidableEq, Repr

namespace ArenaConfig

/-- The largest block that can be described to the system. -/
def largestBlock : Word := UInt64.ofNat (1 <<< 63 - 1)

/-- Yes or no in one of four spellings, in any case and between blanks. -/
def parseSwitch? (text : String) : Option Bool :=
  let word := Text.lowercase (Text.trim text)
  if word ∈ ["true", "1", "yes", "on"] then some true
  else if word ∈ ["false", "0", "no", "off"] then some false
  else none

/-- The configuration that variables describe. -/
def ofVariables (lookup : String → Option String) : ArenaConfig :=
  let default : ArenaConfig := {}
  { maxAllocation :=
      match (lookup "FATHOM_MAX_ALLOC_BYTES").bind (Text.numeral? (1 <<< 64) ∘ Text.trim) with
      | some n => UInt64.ofNat n
      | none => default.maxAllocation
    zeroed :=
      match (lookup "FATHOM_ZERO_MEMORY").bind parseSwitch? with
      | some b => b
      | none => default.zeroed
    spinLimit :=
      match (lookup "FATHOM_DRAIN_SPINS").bind (Text.numeral? (1 <<< 32) ∘ Text.trim) with
      | some n => UInt32.ofNat n
      | none => default.spinLimit }

/-- Refuses a limit that no allocation, or no block, could meet. -/
def validate (config : ArenaConfig) : Except ArenaError Unit :=
  if config.maxAllocation = 0 then .error (.invalidConfig .zeroLimit)
  else if largestBlock < config.maxAllocation then
    .error (.invalidConfig (.limitTooLarge config.maxAllocation))
  else .ok ()

/-- The configuration as it appears in the description of an arena. -/
def describe (config : ArenaConfig) : String :=
  s!"ArenaConfig \x7b max_alloc_bytes: {config.maxAllocation}, zero_memory: {config.zeroed}, " ++
    s!"drain_spin_limit: {config.spinLimit} \x7d"

end ArenaConfig

/-- How a request for native access is met. -/
inductive Policy where
  /-- Granted silently. -/
  | allow
  /-- Granted with a warning at a caller's first request. -/
  | warn
  /-- Refused. -/
  | deny
deriving DecidableEq, Repr

namespace Policy

def name : Policy → String
  | .allow => "allow"
  | .warn => "warn"
  | .deny => "deny"

/-- The policy of that name, in any case and between blanks. -/
def parse (text : String) : Except ArenaError Policy :=
  let word := Text.lowercase (Text.trim text)
  if word = "allow" then .ok .allow
  else if word = "warn" then .ok .warn
  else if word = "deny" then .ok .deny
  else .error (.invalidConfig (.unknownPolicy word))

/-- The policy that the variables name, if they name one. -/
def ofVariables? (lookup : String → Option String) : Option Policy :=
  (lookup "FATHOM_NATIVE_ACCESS").bind fun text => (parse text).toOption

end Policy

end ScopedMemory
