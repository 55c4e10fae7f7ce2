import FleetDeploy.Local.Path
import FleetDeploy.Provision.Error
import FleetDeploy.Store.Error

/-!
# Errors of a release

Why the static assets of a release cannot be published: `file` names the file that
cannot be opened or read, and `walk` the root that cannot be walked.  A push that
panics is reported with the text of the panic, if it is known.
-/

namespace FleetDeploy

/-- Why static assets cannot be published. -/
inductive ReleaseError
  | store (cause : StoreError)
  | provision (cause : ProvisionError)
  | config (cause : ConfigError)
  | file (path : Path)
  | walk (root : Path)
  | cancelled
  | panicked (text : Option String)
  deriving DecidableEq, Repr

/-- The report of a release error. -/
def ReleaseError.report : ReleaseError → Report
  | .store cause => .because "Store" "object store error: " cause.report
  | .provision cause => .because "Provision" "provisioning error: " cause.report
  | .config cause => .because "Config" "configuration error: " cause.report
  | .file _ => .silent "Io"
  | .walk _ => .silent "Walk"
  | .cancelled => .plain "Cancelled" "upload cancelled"
  | .panicked text => ⟨"PushPanicked", text.map fun t => "statics push panicked: " ++ t⟩

end FleetDeploy
