import ScopedMemory.Scope

/-! File mappings.

A recorder remembers every request and whether its pages are in memory. A scripted mapping runs
actions on each request, and then fails or answers as it was told. -/
namespace ScopedMemory

structure MappingCall where
  request : Request
  address : Word
  length : Word
deriving DecidableEq, Repr

def MappingCall.describe (c : MappingCall) : String :=
  s!"{c.request.label} \x7b address: {c.address}, length: {c.length} \x7d"

structure Recorder where
  calls : List MappingCall := []
  resident : Bool := false
  failsForce : Bool := false

namespace Recorder

/-- The recorder after a request, and its answer. -/
def answer (r : Recorder) (call : MappingCall) : Except AccessError Bool × Recorder :=
  let r := { r with calls := r.calls ++ [call] }
  match call.request with
  | .load => (.ok true, { r with resident := true })
  | .unload => (.ok true, { r with resident := false })
  | .isLoaded => (.ok r.resident, r)
  | .force => (if r.failsForce then .error (.mappingFailed "msync failed") else .ok true, r)

def describe (r : Recorder) : String :=
  let calls := ", ".intercalate (r.calls.map MappingCall.describe)
  s!"MockMapping \x7b calls: Mutex \x7b data: [{calls}] \x7d, " ++
    s!"resident: Mutex \x7b data: {r.resident} \x7d, " ++
    s!"fail_force: Mutex \x7b data: {r.failsForce} \x7d \x7d"

end Recorder

structure ScriptedMapping where
  name : String
  scripts : PerRequest Script
  /-- Why a request fails after its actions, if it does. -/
  failures : PerRequest (Option String)
  loaded : Bool

namespace ScriptedMapping

/-- The answer to a request whose actions have run. -/
def answer (m : ScriptedMapping) (request : Request) : Except AccessError Bool :=
  match m.failures.get request with
  | some reason => .error (.mappingFailed reason)
  | none => .ok (if request = .isLoaded then m.loaded else true)

end ScriptedMapping

inductive Mapping where
  | recorder (r : Recorder)
  | scripted (m : ScriptedMapping)

namespace Mapping

/-- The segments that the mapping keeps. -/
def segments : Mapping → List Segment
  | .recorder _ => []
  | .scripted m => m.scripts.toList.flatMap Script.segments

def describe : Mapping → String
  | .recorder r => r.describe
  | .scripted m => s!"Script({m.name})"

end Mapping

end ScopedMemory
