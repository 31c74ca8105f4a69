import HideServer.Gateway.Socket
import HideServer.Env.Workspace

/-!
# The presence machine

The handlers of the gateways and the env instances over the shared cache, one after the other. Time
passes in between. A key that is due is announced later, and an announcement may be handled at any
time, more than once and in any order.
-/

namespace HideServer.Cache

open Async

/-- The timeouts of the services. -/
structure Settings where
  timeouts : Gateway.Timeouts
  /-- `WORKSPACE_ACTIVITY_TIMEOUT` as the env service reads it. -/
  envWsActivity : Nat

def Settings.default : Settings := ⟨.default, 3600000⟩

inductive Event where
  | connect (uid sessionId socketId gatewayId : String)
  | disconnect (uid sessionId : String)
  | ping (uid sessionId : String) (uuid : Option String) (served : Bool)
  | expiry (key : String) (disposed : Bool)
  | envReady (instanceId uid sessionId uuid : String) (ready affine : Bool)
  | envClose (instanceId uid uuid : String) (served : Bool)
  | openDir (uid uuid path : String) (listed : Bool)
  | closeDir (uid uuid path : String)
  | change (change : Change)
  | announce (key : String)
  deriving DecidableEq, Repr

/-- The handler of an event. Expiries are handled only if they have been announced. -/
def program (c : Settings) (w : World) : Event → Io Unit
  | .connect uid sessionId socketId gatewayId => Gateway.handleConnection c.timeouts uid sessionId socketId gatewayId
  | .disconnect uid sessionId => Gateway.handleDisconnect c.timeouts uid sessionId
  | .ping uid sessionId uuid served => Gateway.handlePing c.timeouts uid sessionId uuid served
  | .expiry key disposed => if key ∈ w.announced then Gateway.handleCacheExpiry c.timeouts key disposed else return ()
  | .envReady instanceId uid sessionId uuid ready affine => Env.handleEnvReady instanceId uid sessionId uuid ready affine
  | .envClose instanceId uid uuid served => Env.handleEnvClose c.envWsActivity instanceId uid uuid served
  | .openDir uid uuid path listed => Env.FSService.openDir uid uuid path listed
  | .closeDir uid uuid path => Env.FSService.closeDir uid uuid path
  | .change _ | .announce _ => return ()

def World.announce (w : World) (key : String) : World :=
  if (w.timers key).any fun timer => timer.expires ≤ w.now then
    { w with timers := Function.update w.timers key none, announced := key :: w.announced }
  else w

def World.pass (w : World) : Event → World
  | .change change => w.change change
  | .announce key => w.announce key
  | _ => w

def step (c : Settings) (w : World) (event : Event) : World :=
  (Prog.run exec (program c w event) (w.pass event)).2

def issued (c : Settings) (w : World) (event : Event) : List (World × Cmd) :=
  Prog.calls exec (program c w event) (w.pass event)

def World.session (w : World) (uid sessionId : String) : Option CachedSession :=
  (w.presence uid).bind (·.get? sessionId)

end HideServer.Cache
