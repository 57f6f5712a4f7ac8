import SaveAs.Proofs.Page.Snapshot
import SaveAs.Proofs.Session.Snapshot

/-!
# Stored options do not interfere

Sessions and pages take a copy of the stored options early, where a trigger is built or a function
registered, or late, where bytes are saved. Which copy a delivery uses is told from the run before it, and
changes of the stored options that nothing takes leave no trace in a run.
-/

namespace SaveAs

end SaveAs
