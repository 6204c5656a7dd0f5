import ScopedMemory.Closing

/-! Native access: tokens under a policy, and what a token allows.

A token lets a segment be given another size, or be bound to another scope, where a cleanup can be
registered for its address. -/
namespace ScopedMemory.State

/-- A token for the caller, if the policy grants it. Under `warn` the first request of a caller is
logged. -/
def enableAccess (s : State) (caller : String) : Except AccessError (Token × State) :=
  match s.policy with
  | .deny => .error (.illegalNativeAccess caller)
  | .allow => .ok (⟨caller⟩, s)
  | .warn =>
    if caller ∈ s.warned then .ok (⟨caller⟩, s)
    else .ok (⟨caller⟩, { s with warned := caller :: s.warned }.log (.accessEnabled caller))

/-- Only memory off the heap has an address of its own. -/
def checkOffHeap (segment : Segment) : Except AccessError Unit :=
  if segment.backing.isHeap then .error (.unsupportedKind "reinterpret" "heap") else .ok ()

/-- The segment with another size. -/
def resize (s : State) (token : Token) (segment : Segment) (size : Word) :
    Except AccessError (Segment × State) := do
  checkOffHeap segment
  let s := s.log (.resized token.caller segment.address segment.size size)
  return ({ segment with size, backing := .native }, s)

/-- The segment with that size in another scope, and its cleanup registered there. -/
def rebind (s : State) (t : Thread) (token : Token) (segment : Segment) (size : Word)
    (scope : ScopeId) (cleanup : Option (String × Script)) :
    Except AccessError (Segment × State) := do
  checkOffHeap segment
  let s ← match cleanup with
    | some (tag, script) => s.attachCleanup t scope ⟨tag, segment.address, script⟩
    | none => do
      s.checkEntry t scope
      pure s
  let s := s.log (.rebound token.caller segment.address size scope)
  return ({ segment with size, backing := .native, scope }, s)

/-- A segment over memory that a mapping has mapped. -/
def mapSegment (s : State) (t : Thread) (mapping : MappingId) (address size : Word)
    (readOnly : Bool) (scope : ScopeId) : Except AccessError Segment := do
  s.checkEntry t scope
  return ⟨address, size, .mapped mapping, readOnly, scope⟩

end ScopedMemory.State
