import ScopedMemory.Allocation

/-! Closing scopes and letting go of handles.

A scope ends by a close, by the drop of its arena, or with its last handle. Each way it first stops
being alive, then its cleanups run in order, then its blocks are freed. A cleanup that panics keeps
none of the others from running.

Callbacks use the library again, so the functions here take what nested callbacks do as an
argument (`Nested`). -/
namespace ScopedMemory

/-- What a callback leaves to be done. -/
inductive Work where
  /-- Run these actions. -/
  | script (script : Script)
  /-- Let go of these segments, whose keeper is gone. -/
  | release (segments : List Segment)

/-- Does work one level down; a panic comes back as its text. -/
abbrev Nested := Work → State → Option String × State

namespace State

/-! ### The end of a scope -/

/-- The scope stops being alive. -/
def endScope (s : State) (id : ScopeId) (closer : Option Thread) : State :=
  (s.modifyScope id fun scope => { scope with phase := .closed }).record id
    (.ended closer (s.keepsScope id))

/-- Frees the first block of a scope. An empty one took no memory. -/
def freeBlock (id : ScopeId) (s : State) (block : Block) : State :=
  let s := s.modifyScope id fun scope => { scope with blocks := scope.blocks.tail }
  let s := s.record id (.freed block)
  if block.size = 0 then s
  else
    let memory := s.memory.fill .native block.address block.size.toNat freedByte
    { s with memory }.emit (.freed block)

/-- Frees the blocks of a scope in the order in which they were attached. -/
def freeBlocks (s : State) (id : ScopeId) : State :=
  (s.scope id).blocks.foldl (freeBlock id) s

/-- The first cleanup leaves the scope and gets its argument: an empty segment at its address, in a
new scope. -/
def beginCleanup (t : Thread) (id : ScopeId) (cleanup : Cleanup) (s : State) : State :=
  let (segment, s) := s.atAddress cleanup.address 0
  let s := s.modifyScope id fun scope => { scope with cleanups := scope.cleanups.tail }
  let s := s.record id (.began cleanup segment)
  s.emit (.cleanup cleanup.tag segment (s.get t segment byteLayout 0))

/-- Runs the first cleanup of the scope, and then lets go of what it kept. -/
def runCleanup (nested : Nested) (t : Thread) (id : ScopeId) (cleanup : Cleanup) (s : State) :
    Option String × State :=
  let s := s.beginCleanup t id cleanup
  let others := s.outgoing
  let kept := cleanup.script.segments
  let (panic, s) := nested (.script cleanup.script) { s with outgoing := kept ++ others }
  let (_, s) := nested (.release kept) { s with outgoing := others }
  (panic, s.record id (.done cleanup))

/-- Runs cleanups in order; answers the first panic. -/
def runCleanups (nested : Nested) (t : Thread) (id : ScopeId) :
    List Cleanup → State → Option String × State
  | [], s => (none, s)
  | cleanup :: rest, s =>
    let (panic, s) := s.runCleanup nested t id cleanup
    let s := if panic.isSome then s.log (.cleanupPanicked id) else s
    let (later, s) := runCleanups nested t id rest s
    (panic.or later, s)

/-- Ends a scope: runs its cleanups and frees its blocks. -/
def finish (nested : Nested) (t : Thread) (id : ScopeId) (closer : Option Thread) (s : State) :
    Option String × State :=
  let scope := s.scope id
  let s := s.endScope id closer
  let (panic, s) := s.runCleanups nested t id scope.cleanups
  let s := s.freeBlocks id
  let s := s.log
    (.scopeClosed id scope.discipline.kind scope.cleanups.length scope.heldBytes)
  (panic, s)

/-! ### Closing -/

/-- The scope can be closed by the thread. A confined scope is asked whether it is alive, whose it
is and whether it is in use; a shared one first whether this thread is inside of it. -/
def checkClose (s : State) (t : Thread) (id : ScopeId) : Except AccessError Unit :=
  match (s.scope id).discipline with
  | .confined _ => do
    s.checkAlive id
    s.checkOwner t id
    if s.holdsScope t id then throw .scopeInUse
  | .shared => do
    if s.holdsScope t id then throw .scopeInUse
    s.checkAlive id
  | d => .error (.illegalArgument (.notCloseable d.kind))

/-- Closes the scope; answers the first panic of its cleanups. -/
def closeScope (nested : Nested) (t : Thread) (id : ScopeId) (s : State) :
    Except AccessError (Option String) × State :=
  match s.checkClose t id with
  | .error e => (.error e, s)
  | .ok () =>
    let s := s.modifyScope id fun scope => { scope with phase := .closing }
    let (panic, s) := s.finish nested t id (some t)
    (.ok panic, s)

/-- Closes an arena. The first panic of a cleanup is raised again at the end. -/
def closeArena (nested : Nested) (t : Thread) (arena : Arena) (s : State) :
    Except Fault Unit × State :=
  let kind := (s.scope arena.scope).discipline.kind
  if kind.closeable then
    match s.closeScope nested t arena.scope with
    | (.error e, s) => (.error (.arena (.access e)), s)
    | (.ok (some text), s) => (.error (.panic (some text)), s)
    | (.ok none, s) => (.ok (), s)
  else (.error (.arena (.notCloseable kind)), s)

/-! ### Lost handles -/

/-- The last handle of the scope is gone. -/
def expire (nested : Nested) (t : Thread) (id : ScopeId) (s : State) : State :=
  let scope := s.scope id
  if scope.phase = .closed then s
  else if scope.cleanups.isEmpty && scope.blocks.isEmpty then
    s.endScope id none
  else (s.finish nested t id none).2

/-- Ends the scope if nothing keeps it. -/
def releaseScope (nested : Nested) (t : Thread) (id : ScopeId) (s : State) : State :=
  if s.keepsScope id then s else s.expire nested t id

/-- Ends the mapping if nothing keeps it, and lets go of what it kept. -/
def releaseMapping (nested : Nested) (id : MappingId) (s : State) : State :=
  if s.keepsMapping id then s
  else match s.mapping? id with
    | none => s
    | some mapping =>
      (nested (.release mapping.segments) { s with mappings := s.mappings.set! id none }).2

/-- Lets go of segments in order. A segment first lets go of its mapping, while it still keeps its
scope, and then of its scope; the segments after it keep theirs until their turn comes. -/
def releaseSegments (nested : Nested) (t : Thread) : List Segment → State → State
  | [], s => s
  | segment :: rest, s =>
    let others := s.outgoing
    let s := match segment.backing with
      | .mapped id =>
        let unmapped := { segment with backing := .native }
        { s with outgoing := unmapped :: rest ++ others }.releaseMapping nested id
      | _ => s
    let s := { s with outgoing := rest ++ others }.releaseScope nested t segment.scope
    releaseSegments nested t rest { s with outgoing := others }

/-- The handle of an arena is gone: the arena is closed if it can be, else the log says why not,
and its scope is let go of. -/
def releaseArena (nested : Nested) (t : Thread) (arena : Arena) (s : State) : State :=
  let scope := s.scope arena.scope
  let s :=
    if scope.discipline.kind.closeable && scope.isAlive then
      match s.closeScope nested t arena.scope with
      | (.error e, s) => s.log (.arenaLeftOpen arena.scope e)
      | (.ok _, s) => s
    else s
  s.releaseScope nested t arena.scope

/-! ### Mappings -/

/-- The mapping meets a request. -/
def askMapping (nested : Nested) (id : MappingId) (request : Request) (address length : Word)
    (s : State) : Except Fault Bool × State :=
  match s.mapping? id with
  | none => (.error (.access (.mappingFailed "the mapping has ended")), s)
  | some (.recorder r) =>
    let (answer, r) := r.answer ⟨request, address, length⟩
    (answer.mapError Fault.access, { s with mappings := s.mappings.set! id (some (.recorder r)) })
  | some (.scripted m) =>
    let s := s.emit (.requested m.name request address length)
    match nested (.script (m.scripts.get request)) s with
    | (some text, s) => (.error (.panic (some text)), s)
    | (none, s) => ((m.answer request).mapError Fault.access, s)

/-- Forwards a request to the mapping behind a segment. The thread is inside of the segment's scope
meanwhile, and leaves it however the request ends; the segment is kept for so long. -/
def ask (nested : Nested) (t : Thread) (segment : Segment) (request : Request) (s : State) :
    Except Fault Bool × State :=
  match segment.backing with
  | .mapped id => match s.enter t segment.scope with
    | .error e => (.error (.access e), s)
    | .ok s =>
      let others := s.outgoing
      let (answer, s) := { s with outgoing := segment :: others }.askMapping nested id request
        segment.address segment.size
      let s := s.letOut t segment.scope
      (answer, { s with outgoing := others }.releaseSegments nested t [segment])
  | backing => (.error (.access (.unsupportedKind request.name backing.name)), s)

end State

end ScopedMemory
