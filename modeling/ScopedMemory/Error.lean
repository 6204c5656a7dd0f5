import ScopedMemory.ScopeKind

/-! What can go wrong, and how it is said.

An `AccessError` is a refused use of a segment, an `ArenaError` a refused allocation, close or
configuration. Each constructor is a cause; the wording is in `message` alone. -/
namespace ScopedMemory

/-- The two ends of an element-wise copy. -/
inductive Endpoint where
  | source
  | destination
deriving DecidableEq, Repr

def Endpoint.name : Endpoint → String
  | .source => "source"
  | .destination => "destination"

/-- Why an argument makes no sense. -/
inductive Complaint where
  | notPowerOfTwo (alignment : Word)
  | ragged (size alignment : Word)
  | sequenceOverflow (count size : Word)
  | structOverflow
  | separateMemories
  | emptyElement
  | overaligned (alignment size : Word)
  | overalignedEnd (endpoint : Endpoint) (alignment size : Word)
  | unevenElements (segment element : Word)
  | unevenCarrier (segment : Word) (carrier : String) (width : Word)
  | sizesDiffer (source destination : Word)
  | noMachineAddress
  | notCloseable (kind : ScopeKind)
  | other (text : String)
deriving DecidableEq, Repr

def Complaint.message : Complaint → String
  | .notPowerOfTwo alignment => s!"alignment {alignment} is not a power of two"
  | .ragged size alignment => s!"element size {size} is not a multiple of its alignment {alignment}"
  | .sequenceOverflow count size => s!"sequence of {count} x {size} bytes overflows"
  | .structOverflow => "struct layout size overflows"
  | .separateMemories => "segments do not share a backing memory"
  | .emptyElement => "element layout has size zero"
  | .overaligned alignment size => s!"element alignment {alignment} exceeds element size {size}"
  | .overalignedEnd endpoint alignment size =>
    s!"{endpoint.name} element alignment {alignment} exceeds element size {size}"
  | .unevenElements segment element =>
    s!"segment size {segment} is not a multiple of element size {element}"
  | .unevenCarrier segment carrier width =>
    s!"segment size {segment} is not a multiple of {carrier} ({width} bytes)"
  | .sizesDiffer source destination => s!"element sizes differ: {source} vs {destination}"
  | .noMachineAddress => "heap segments have no machine address"
  | .notCloseable kind => s!"{kind.label} scopes cannot be closed"
  | .other text => text

/-- A refused use of a segment. -/
inductive AccessError where
  | outOfBounds (offset length size : Word)
  | misaligned (address alignment : Word)
  | scopeNotAlive
  | scopeInUse
  | wrongThread
  | readOnly
  | unsupportedKind (operation kind : String)
  | illegalNativeAccess (caller : String)
  | illegalArgument (complaint : Complaint)
  | mappingFailed (reason : String)
deriving DecidableEq, Repr

namespace AccessError

def message : AccessError → String
  | .outOfBounds offset length size =>
    s!"out of bounds: offset {offset} + length {length} exceeds segment size {size}"
  | .misaligned address alignment =>
    s!"misaligned access: address {address.hex} is not aligned to {alignment} bytes"
  | .scopeNotAlive => "scope is no longer alive"
  | .scopeInUse => "scope cannot close while the calling thread is accessing it"
  | .wrongThread => "attempted access outside the owning thread"
  | .readOnly => "attempted write on a read-only segment"
  | .unsupportedKind operation kind => s!"{operation} is not supported on {kind} segments"
  | .illegalNativeAccess caller => s!"illegal native access by '{caller}'"
  | .illegalArgument complaint => s!"illegal argument: {complaint.message}"
  | .mappingFailed reason => s!"mapping operation failed: {reason}"

/-- The name of the cause. -/
def kind : AccessError → String
  | .outOfBounds .. => "OutOfBounds"
  | .misaligned .. => "Misaligned"
  | .scopeNotAlive => "ScopeNotAlive"
  | .scopeInUse => "ScopeInUse"
  | .wrongThread => "WrongThread"
  | .readOnly => "ReadOnly"
  | .unsupportedKind .. => "UnsupportedKind"
  | .illegalNativeAccess .. => "IllegalNativeAccess"
  | .illegalArgument .. => "IllegalArgument"
  | .mappingFailed .. => "MappingFailed"

def isOutOfBounds : AccessError → Bool
  | .outOfBounds .. => true
  | _ => false

end AccessError

/-- Why a configuration is refused. -/
inductive ConfigFault where
  | zeroLimit
  | limitTooLarge (limit : Word)
  | unknownPolicy (text : String)
  | other (text : String)
deriving DecidableEq, Repr

def ConfigFault.message : ConfigFault → String
  | .zeroLimit => "max_alloc_bytes must be non-zero"
  | .limitTooLarge limit => s!"max_alloc_bytes {limit} exceeds isize::MAX"
  | .unknownPolicy text => s!"unknown native access policy '{text}'"
  | .other text => text

/-- A refused allocation, close or configuration. -/
inductive ArenaError where
  | capacityExceeded (requested capacity : Word)
  | invalidAlignment (alignment : Word)
  | allocationFailed (size alignment : Word)
  | notCloseable (kind : ScopeKind)
  | invalidConfig (fault : ConfigFault)
  | access (error : AccessError)
deriving DecidableEq, Repr

namespace ArenaError

def message : ArenaError → String
  | .capacityExceeded requested capacity =>
    s!"arena capacity exceeded: requested {requested} bytes, capacity {capacity} bytes"
  | .invalidAlignment alignment => s!"invalid alignment {alignment}: must be a power of two"
  | .allocationFailed size alignment => s!"allocation of {size} bytes aligned to {alignment} failed"
  | .notCloseable kind => s!"{kind.label} arenas cannot be closed explicitly"
  | .invalidConfig fault => s!"invalid arena config: {fault.message}"
  | .access error => error.message

/-- The name of the cause; a refused access inside shows its own. -/
def kind : ArenaError → String
  | .capacityExceeded .. => "CapacityExceeded"
  | .invalidAlignment .. => "InvalidAlignment"
  | .allocationFailed .. => "AllocationFailed"
  | .notCloseable .. => "NotCloseable"
  | .invalidConfig .. => "InvalidConfig"
  | .access error => s!"Access({error.kind})"

end ArenaError

end ScopedMemory
