import DataPlane.Ref.System

/-!
# Heartbeats in time

`spawn_lease_heartbeat`, with the time it takes. The engines of `System` renew
a lease when they like; here a renewal comes from a task that sleeps for twenty
seconds, renews, and sleeps again. The task is spawned when a lease has been
acquired and has been waited for before the lease is released. A renewal that
fails is logged and the next one is due twenty seconds later; one that is told
the lease belongs to somebody else ends the task.

Sleeping is measured on the broker's clock.
-/

namespace DataPlane.Ref

open DataPlane DataPlane.Lib

/-- `Duration::from_secs(20)`. -/
def heartbeatMs : Nat := 20000

/-- A heartbeat task: when its sleep is over. How many renewals in a row have
failed is history that no step reads. -/
structure Heartbeat where
  wakesAt : Nat
  failures : Nat
  deriving DecidableEq, Repr

/-- The task has just been spawned, or has just renewed. -/
def Heartbeat.sleep (now : Nat) : Heartbeat := ⟨now + heartbeatMs, 0⟩

/-- The renewal failed. -/
def Heartbeat.retry (h : Heartbeat) (now : Nat) : Heartbeat :=
  ⟨now + heartbeatMs, h.failures + 1⟩

/-- The engine has acquired a lease and not released it. -/
def Phase.leased : Phase → Bool
  | .working _ (.attempt _ _) | .working _ (.release _ _) => true
  | _ => false

/-- What `renew_lease` answers the engine. -/
def renewed (cfg : EngineConfig) (b : Broker) (e : Engine) : Bool :=
  match e.phase with
  | .working taken (.attempt a _) | .working taken (.release a _) =>
      (b.renewLease cfg.streams taken.job.requestId
        (leaseOwner e.engineId a)).1
  | _ => false

/-- The system with the heartbeats of its engines, by index. -/
structure TimedSys where
  sys : Sys
  heartbeats : Nat → Option Heartbeat

/-- No engine has a lease yet. -/
def TimedSys.init (now : Nat) (engines : List (String × String)) : TimedSys :=
  ⟨Sys.init now engines, fun _ => none⟩

/-- A step of the system, or of a heartbeat. -/
inductive TimedLabel
  /-- Anything but a renewal. -/
  | sys (label : Label)
  /-- A heartbeat renews, or its command fails. -/
  | beat (index : Nat) (answered : Bool)
  deriving DecidableEq

/-- The step is a renewal, which is for a heartbeat to make. -/
def Label.renews : Label → Bool
  | .engine _ .renewLease => true
  | _ => false

namespace TimedSys

/-- The heartbeat of an engine after a step of the system: spawned with the
lease, gone with it. `run_job` waits for the task before it releases the lease,
so while it does that no more than a last renewal is under way; what is kept
here until the release is carried out is when the next one would have been
due. -/
def follow (t : TimedSys) (s : Sys) (index : Nat) : Option Heartbeat :=
  match t.sys.engines[index]?, s.engines[index]? with
  | some before, some after =>
      if after.phase.leased then
        if before.phase.leased then t.heartbeats index
        else some (.sleep s.broker.now)
      else none
  | _, _ => none

/-- The sleep is over. -/
def beat (cfg : SysConfig) (t : TimedSys) (index : Nat) (answered : Bool) :
    Option TimedSys :=
  match t.heartbeats index, t.sys.engines[index]? with
  | some h, some e =>
      if h.wakesAt ≤ t.sys.broker.now ∧ e.phase.leased = true then
        if answered then
          match t.sys.step cfg (.engine index .renewLease) with
          | none => none
          | some s =>
              some
                { sys := s
                  heartbeats := Function.update t.heartbeats index
                    (if renewed cfg.engine t.sys.broker e then
                      some (.sleep s.broker.now)
                    else none) }
        else
          some { t with
            heartbeats := Function.update t.heartbeats index
              (some (h.retry t.sys.broker.now)) }
      else none
  | _, _ => none

/-- One step, with what it makes of the heartbeats. -/
def step (cfg : SysConfig) (t : TimedSys) : TimedLabel → Option TimedSys
  | .sys label =>
      if label.renews then none
      else
        match t.sys.step cfg label with
        | none => none
        | some s => some ⟨s, t.follow s⟩
  | .beat index answered => t.beat cfg index answered

end TimedSys

end DataPlane.Ref
