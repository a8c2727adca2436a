import ZWaveHost.Network
import ZWaveHost.Session

/-!
The host: a session whose audience is a network among its collaborators. It starts by asking the controller who it
is and which nodes it knows, and may close the store when it stops.
-/
namespace ZWaveHost

structure Residence where
  home : Household := {}
  history : List (Time × Effect) := []
  deriving DecidableEq, Repr

namespace Residence

def take (residence : Residence) (now : Time) (input : NetworkInput) : Residence × List LinkCall :=
  let (home, effects) := residence.home.step input
  (⟨home, residence.history ++ effects.map (now, ·)⟩, Effect.linkCalls effects)

def perform (residence : Residence) (now : Time) (effect : Effect) : Residence × Except Fault Unit :=
  let (world, result) := residence.home.world.perform effect
  (⟨{ residence.home with world }, residence.history ++ [(now, effect)]⟩, result)

end Residence

def NetworkInput.ofStation : StationEvent → NetworkInput
  | .link happening => .event happening
  | .connectionLost fault => .connectionLost fault

instance : Audience Residence where
  hear residence now event := residence.take now (.ofStation event)

structure Host where
  session : Session Residence
  closesStore : Bool

namespace Host

def network (host : Host) : Network := host.session.audience.home.network

def tell (host : Host) (input : NetworkInput) : Host :=
  let session := host.session
  let (audience, calls) := session.audience.take session.now input
  { host with session := (calls.foldl Session.call { session with audience }).settle }

def start (settings : Settings) (home : Household) (port : Port) : Host :=
  tell { session := Session.fresh settings port { home }, closesStore := settings.closesStore } .connected

def stop (host : Host) : Host × Except Fault Unit :=
  let session := host.session.cancel
  if host.closesStore then
    let (audience, result) := session.audience.perform session.now (.store .close)
    ({ host with session := { session with audience } }, result)
  else ({ host with session }, .ok ())

end Host

structure Plan where
  settings : Settings := {}
  catalogue : Catalogue := {}
  store : Option Table := none
  listener : Bool := false
  refusals : Refusals := {}
  deriving DecidableEq, Repr

namespace Plan

/-- Starts the host on a port, if it could be opened. If not, the listener is told, and the store is closed if that
is wanted; whether closing works does not matter any more. -/
def launch (plan : Plan) (opened : Except Fault Port) : Except (Fault × List Effect) Host :=
  match plan.store, opened with
  | none, _ => .error (.missingStore, [])
  | some _, .error fault =>
    .error (fault, .notify (.connectionFailure fault.message) ::
      if plan.settings.closesStore then [.store .close] else [])
  | some store, .ok port =>
    .ok (Host.start plan.settings
      { network := { catalogue := plan.catalogue }
        world := { store, listener := plan.listener, refusals := plan.refusals } } port)

end Plan

end ZWaveHost
