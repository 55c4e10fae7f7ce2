import FleetDeploy.Provision.Bucket
import FleetDeploy.Rehearsal.Script

/-!
# A provider of resources in memory

It keeps resources in the order of their creation, and gives each new one an
identifier by its number.
-/

namespace FleetDeploy.Rehearsal

/-- How a creation behaves, and what the new resource is like. -/
structure CreateAct where
  act : Act ResourceError
  name : Option String
  environment : Option TextMap
  deriving Repr

/-- The acts of the calls to come. -/
structure ProviderScript where
  list : List (Act ResourceError)
  create : List CreateAct
  update : List (Act ResourceError)
  delete : List (Act ResourceError)
  deriving Repr

/-- A provider: its resources, its script, and how many resources it has created
and how many times it was asked for random words. -/
structure Provider where
  clock : Clock
  resources : List Resource
  script : ProviderScript
  created : Nat
  drawn : Nat
  deriving Repr

namespace Provider

/-- A provider that keeps some resources and refuses nothing. -/
def ofResources (resources : List Resource) : Provider :=
  ⟨.zero, resources, ⟨[], [], [], []⟩, 0, 0⟩

/-- The environment of a new bucket. -/
def standardEnvironment : TextMap :=
  .ofList [(Secrets.accessVariable, "tid_123"), (Secrets.secretVariable, "tsec_456")]

/-- Words that select a new token each time. -/
def words (drawn : Nat) : List UInt64 :=
  [0, 0, UInt64.ofNat (drawn * (UInt32.size / Haiku.tokens + 1))]

/-- Create a resource. -/
def create (p : Provider) (request : ResourceRequest) (a : CreateAct) :
    CreatedResource × Provider :=
  let created := p.created + 1
  let id := "res-" ++ toString created
  let name := a.name.getD request.name
  (⟨id, name, a.environment.getD standardEnvironment⟩,
    { p with created, resources := p.resources ++ [⟨id, name, none⟩] })

/-- Set the metadata of a resource. -/
def update (p : Provider) (id : String) (metadata : BucketMetadata) : Provider :=
  { p with resources := p.resources.map fun r =>
      if r.id = id then { r with metadata := some metadata.toJson } else r }

/-- Delete the resources of a name. -/
def delete (p : Provider) (name : String) : Provider :=
  { p with resources := p.resources.filter (·.name ≠ name) }

/-- Answer a call. -/
def answer : (c : ResourceCall) → Provider → Except Stop (ResourceService.Reply c) × Provider
  | .list _, p =>
    let script := { p.script with list := p.script.list.tail }
    (p.script.list.headD .free).play p.clock (fun clock => { p with clock, script })
      fun p => (p.resources, p)
  | .create request, p =>
    let script := { p.script with create := p.script.create.tail }
    let a := p.script.create.headD ⟨.free, none, none⟩
    a.act.play p.clock (fun clock => { p with clock, script }) fun p => p.create request a
  | .update id metadata, p =>
    let script := { p.script with update := p.script.update.tail }
    (p.script.update.headD .free).play p.clock (fun clock => { p with clock, script })
      fun p => ((), p.update id metadata)
  | .delete name, p =>
    let script := { p.script with delete := p.script.delete.tail }
    (p.script.delete.headD .free).play p.clock (fun clock => { p with clock, script })
      fun p => ((), p.delete name)
  | .drawWords, p => (.ok (words p.drawn), { p with drawn := p.drawn + 1 })

end Provider

end FleetDeploy.Rehearsal
