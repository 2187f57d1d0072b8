import FreifunkManager.Proofs.Repair

/-! # The manager with its devices

Devices report, and the server pushes to the device that reports what differs from its row. Before and after that
clients edit nodes, and somebody may change a device by other means or put up a new one. Every connection leads to the
device; reports and messages are handled as a whole.
-/

namespace FreifunkManager.Fleet

open Effects Program

structure State where
  world : World
  devices : String → Option Device

inductive Event where
  | message (msg : Message) (choices : ℕ → Choice)
  /-- The device of a node reports. -/
  | report (nodeID : String) (choices : ℕ → Choice)
  /-- A device is changed by other means, or is new. -/
  | change (device : Device)

variable (config : Config) (s : State)

/-- The server handles a report of a device, to which all connections lead. -/
def State.hear (d : Device) (choices : ℕ → Choice) : State :=
  let step : Step := { call := .report d.report, choices }
  let (_, (after, _), device) := (step.call.program config).run step.handleAt ((s.world, 0), d)
  { world := after, devices := Function.update s.devices d.nodeID (some device) }

def State.step : Event → Option State
  | .message msg choices => some { s with world := (serve config { call := .message msg, choices } s.world).1 }
  | .report nodeID choices => (s.devices nodeID).map fun d => s.hear config d choices
  | .change device => some { s with devices := Function.update s.devices device.nodeID (some device) }

def State.run (s : State) : List Event → Option State
  | [] => some s
  | event :: rest => (s.step config event).bind fun next => next.run rest

end FreifunkManager.Fleet
