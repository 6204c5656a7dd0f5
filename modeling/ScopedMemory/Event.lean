import ScopedMemory.Scope

/-! What happens besides the answers: blocks are freed, cleanups run, mappings are asked, actions
end, and the log is written. -/
namespace ScopedMemory

/-- Why an operation did not answer. -/
inductive Fault where
  | access (error : AccessError)
  | arena (error : ArenaError)
  /-- A callback gave up, with this text; or the operation itself did. -/
  | panic (text : Option String)
  /-- The request makes no sense. -/
  | badRequest
deriving DecidableEq, Repr

/-- One entry of the log. -/
inductive LogEntry where
  | arenaCreated (scope : ScopeId) (kind : ScopeKind)
  | allocated (scope : ScopeId) (address size alignment : Word)
  | scopeClosed (scope : ScopeId) (kind : ScopeKind) (cleanups bytes : Nat)
  | cleanupPanicked (scope : ScopeId)
  | arenaLeftOpen (scope : ScopeId) (error : AccessError)
  | accessEnabled (caller : String)
  | resized (caller : String) (address old new : Word)
  | rebound (caller : String) (address size : Word) (scope : ScopeId)
deriving DecidableEq, Repr

def scopeTitle (id : ScopeId) : String := s!"scope#{id}"

/-- A field of a log entry. -/
inductive LogField where
  | number (n : Nat)
  | text (s : String)
deriving DecidableEq, Repr

namespace LogEntry

def level : LogEntry → String
  | .arenaCreated .. | .allocated .. | .scopeClosed .. => "debug"
  | .cleanupPanicked .. => "error"
  | .arenaLeftOpen .. | .accessEnabled .. => "warn"
  | .resized .. | .rebound .. => "trace"

def message : LogEntry → String
  | .arenaCreated .. => "arena created"
  | .allocated .. => "arena allocation"
  | .scopeClosed .. => "scope closed"
  | .cleanupPanicked .. => "cleanup action panicked"
  | .arenaLeftOpen .. => "arena dropped without closing"
  | .accessEnabled .. => "restricted native access enabled"
  | .resized .. => "reinterpret"
  | .rebound .. => "reinterpret into scope"

def fields : LogEntry → List (String × LogField)
  | .arenaCreated scope kind => [("scope", .text (scopeTitle scope)), ("kind", .text kind.label)]
  | .allocated scope address size alignment =>
    [("scope", .text (scopeTitle scope)), ("address", .number address.toNat),
      ("byte_size", .number size.toNat), ("byte_alignment", .number alignment.toNat)]
  | .scopeClosed scope kind cleanups bytes =>
    [("scope", .text (scopeTitle scope)), ("kind", .text kind.label),
      ("actions", .number cleanups), ("bytes_released", .number bytes)]
  | .cleanupPanicked scope => [("scope", .text (scopeTitle scope))]
  | .arenaLeftOpen scope error =>
    [("scope", .text (scopeTitle scope)), ("error", .text error.message)]
  | .accessEnabled caller => [("caller", .text caller)]
  | .resized caller address old new =>
    [("caller", .text caller), ("address", .number address.toNat), ("from", .number old.toNat),
      ("to", .number new.toNat)]
  | .rebound caller address size scope =>
    [("caller", .text caller), ("address", .number address.toNat), ("to", .number size.toNat),
      ("scope", .text (scopeTitle scope))]

end LogEntry

/-- How an action of a callback ended. -/
inductive ActionResult where
  /-- The arena is no longer there. -/
  | gone
  | done
  | allocated (segment : Segment)
  | byte (value : UInt8)
  | failed (fault : Fault)

inductive Event where
  | freed (block : Block)
  | cleanup (tag : String) (segment : Segment) (first : Except AccessError UInt8)
  | requested (mapping : String) (request : Request) (address length : Word)
  | acted (action : String) (result : ActionResult)
  | logged (entry : LogEntry)

def Event.isLogged : Event → Bool
  | .logged _ => true
  | _ => false

end ScopedMemory
