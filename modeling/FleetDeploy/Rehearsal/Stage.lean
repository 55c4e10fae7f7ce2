import FleetDeploy.Rehearsal.Provider
import FleetDeploy.Rehearsal.Storage
import FleetDeploy.Release.Deploy

/-!
# Everything that a release needs, in memory
-/

namespace FleetDeploy.Rehearsal

/-- A provider of resources, a store with a local tree, and the configuration that
a release changes. -/
structure Stage where
  provider : Provider
  storage : Storage
  config : AppConfig
  deriving Repr

namespace Stage

/-- Answer a call. -/
def answer : (c : ReleaseCall) → Stage → Except Stop (ReleaseService.Reply c) × Stage
  | .provision c, s =>
    let (reply, provider) := s.provider.answer c
    (reply, { s with provider })
  | .sync c, s =>
    let (reply, storage) := s.storage.answer c
    (reply, { s with storage })
  | .connect _, s =>
    let (reply, storage) := s.storage.connect
    (reply, { s with storage })
  | .setStatics statics, s => (.ok (), { s with config := { s.config with statics } })

end Stage

end FleetDeploy.Rehearsal
