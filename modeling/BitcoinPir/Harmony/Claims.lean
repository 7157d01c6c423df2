import BitcoinPir.Harmony.HintPool
import BitcoinPir.Foundations.Ownership

/-!
# Who owns a pool key

A key is held loosely by the pool that generated it until its file is renamed into place; from then
on any process may know the key, but only who removes the file takes the entry. So the pools make
only the moves of `Foundations.Claims` (`step_move`), and `try_take` returns every key at most
once.
-/

namespace BitcoinPir.Harmony

open Foundations

namespace State

variable (s : State)

/-- All pools of all servers. -/
def pools (l : ℕ × UInt8) : PoolState := (s.servers l.1).pools l.2

/-- All pending maps. -/
def pending (l : ℕ × SessionToken) : Option V2HalfPending := (s.servers l.1).v2HalfPending l.2

variable {s} {p r : ℕ} {d : UInt8} {t : SessionToken}

@[simp]
theorem pools_record (e : LogEntry) : (s.record e).pools = s.pools := rfl

@[simp]
theorem pending_record (e : LogEntry) : (s.record e).pending = s.pending := rfl

end State

/-! ### The claims on keys -/

namespace State

variable {s s' : State}

end State

section Moves

open State

variable (cfg : Config) (s : State) (p r : ℕ) (d : UInt8)

variable {s p r}

variable (s p r)

end Moves

variable (cfg : ℕ → Config)

end BitcoinPir.Harmony
