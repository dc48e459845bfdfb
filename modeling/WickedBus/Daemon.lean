import WickedBus.Foundation.AssocMap
import WickedBus.Foundation.GuardedRun
import WickedBus.Query

namespace WickedBus

open GuardedRun
open WickedBus.Filter (Text)

inductive DegradeReason where
  | queueFull | writeTimeout | daemonShutdown
  deriving DecidableEq, Repr

inductive Frame where
  | notify (eventId : ℤ) (event : Option EventRow)
  | pong
  | degrade (reason : DegradeReason)
  deriving DecidableEq, Repr

inductive ClientFrame where
  | hello (subscriberId : String) (cursor : Option ℤ) (filter : Option QueryFilter)
  | ack (eventId : Option ℤ)
  | ping
  | produced (event : Option EventRow)
  | unknown (kind : String)
  deriving DecidableEq, Repr

structure DaemonConfig where
  encodedNotifySize : EventRow → ℕ
  inlinePayloadMaxBytes : ℕ
  subscriberQueueMax : ℕ
  degradeHighWatermark : ℚ
  degradeDurationMs : ℤ

structure Session where
  subscriberId : Option String
  cursor : ℤ
  filter : Option QueryFilter
  queue : List Frame
  droppedCount : ℕ
  highWatermarkSince : Option ℤ
  lastDegradeAt : Option ℤ
  closed : Bool
  drainPending : Bool
  deriving DecidableEq, Repr

def newSession : Session := ⟨none,0,none,[],0,none,none,false,false⟩

def DaemonConfig.notify (cfg : DaemonConfig) (row : EventRow) : Frame :=
  .notify row.eventId (if cfg.encodedNotifySize row ≤ cfg.inlinePayloadMaxBytes then some row else none)

def daemonMatches (filter : Option QueryFilter) (row : EventRow) : Bool :=
  match filter with
  | none => true
  | some f =>
    wherePart f.eventType row.eventType && wherePart f.domain row.domain &&
      wherePart f.subdomain row.subdomain

def flushQueue : ℕ → List Frame → List Frame × List Frame
  | _, [] => ([],[])
  | 0, line :: queue => ([line],line :: queue)
  | room + 1, line :: queue =>
    let r := flushQueue room queue
    (line :: r.1,r.2)

namespace Session

def flush (s : Session) (room : ℕ) : Session × List Frame :=
  if s.closed then (s,[])
  else
    let r := flushQueue room s.queue
    ({ s with queue := r.2, drainPending := s.drainPending || !r.2.isEmpty },r.1)

def degrade (s : Session) (now : ℤ) (reason : DegradeReason) : Session × List Frame :=
  if s.closed then (s,[]) else ({ s with lastDegradeAt := some now, closed := true },[.degrade reason])

def highWatermark (cfg : DaemonConfig) : ℤ := ⌊(cfg.subscriberQueueMax : ℚ) * cfg.degradeHighWatermark⌋

def checkHighWatermark (s : Session) (cfg : DaemonConfig) (now : ℤ) : Session × List Frame :=
  if highWatermark cfg ≤ s.queue.length then
    match s.highWatermarkSince with
    | none => ({ s with highWatermarkSince := some now },[])
    | some since => if cfg.degradeDurationMs ≤ now - since then s.degrade now .queueFull else (s,[])
  else ({ s with highWatermarkSince := none },[])

def push (s : Session) (cfg : DaemonConfig) (line : Frame) : Session :=
  if cfg.subscriberQueueMax ≤ s.queue.length then
    { s with queue := s.queue.tail ++ [line], droppedCount := s.droppedCount + 1 }
  else { s with queue := s.queue ++ [line] }

def enqueue (s : Session) (cfg : DaemonConfig) (now : ℤ) (room : ℕ) (line : Frame) :
    Session × List Frame :=
  if s.closed then (s,[])
  else
    let marked := (s.push cfg line).checkHighWatermark cfg now
    let flushed := marked.1.flush room
    (flushed.1,marked.2 ++ flushed.2)

def receives (s : Session) (row : EventRow) : Bool :=
  daemonMatches s.filter row && decide (s.cursor < row.eventId)

def hello (s : Session) (subscriberId : String) (cursor : Option ℤ) (filter : Option QueryFilter) :
    Session :=
  { s with subscriberId := some subscriberId, cursor := cursor.getD 0, filter := filter }

def acked (s : Session) (eventId : Option ℤ) : Session :=
  match eventId with
  | none => s
  | some id => { s with cursor := max s.cursor id }

end Session

structure Daemon where
  sessions : ℕ → Option Session
  subscribers : List (String × ℕ)
  accepted : ℕ

structure DaemonEnv where
  now : ℤ
  room : ℕ → ℕ

inductive DaemonAction where
  | connect
  | frame (i : ℕ) (frame : ClientFrame) (env : DaemonEnv)
  | malformed (i : ℕ)
  | drained (i : ℕ) (room : ℕ)
  | socketClosed (i : ℕ)
  | broadcast (row : EventRow) (env : DaemonEnv)
  | stop (now : ℤ)

def startedDaemon : Daemon := ⟨fun _ => none,[],0⟩

def registryDelete (subscribers : List (String × ℕ)) (subscriberId : Option String) :
    List (String × ℕ) :=
  match subscriberId with
  | none => subscribers
  | some id => AssocMap.erase subscribers id

namespace Daemon

def setSession (d : Daemon) (i : ℕ) (s : Session) : Daemon :=
  { d with sessions := Function.update d.sessions i (some s) }

def enqueueAt (cfg : DaemonConfig) (env : DaemonEnv) (line : Frame) (d : Daemon × List (ℕ × Frame))
    (i : ℕ) : Daemon × List (ℕ × Frame) :=
  match d.1.sessions i with
  | none => d
  | some s =>
    let r := s.enqueue cfg env.now (env.room i) line
    (d.1.setSession i r.1,d.2 ++ r.2.map (Prod.mk i))

def recipients (d : Daemon) (row : EventRow) : List ℕ :=
  (d.subscribers.map Prod.snd).filter (fun i => (d.sessions i).any (fun s => s.receives row))

def broadcast (d : Daemon) (cfg : DaemonConfig) (env : DaemonEnv) (row : EventRow) :
    Daemon × List (ℕ × Frame) :=
  (d.recipients row).foldl (enqueueAt cfg env (cfg.notify row)) (d,[])

def handleFrame (d : Daemon) (cfg : DaemonConfig) (env : DaemonEnv) (i : ℕ) (s : Session) :
    ClientFrame → Daemon × List (ℕ × Frame)
  | .hello subscriberId cursor filter =>
    ({ d.setSession i (s.hello subscriberId cursor filter) with
      subscribers := AssocMap.set d.subscribers subscriberId i },[])
  | .ack eventId => (d.setSession i (s.acked eventId),[])
  | .ping => enqueueAt cfg env .pong (d,[]) i
  | .produced (some row) => d.broadcast cfg env row
  | .produced none => (d,[])
  | .unknown _ => (d,[])

def socketClosed (d : Daemon) (i : ℕ) (s : Session) : Daemon :=
  { d with
    sessions := Function.update d.sessions i none
    subscribers := registryDelete d.subscribers s.subscriberId }

def step (cfg : DaemonConfig) (d : Daemon) : DaemonAction → Option (Daemon × List (ℕ × Frame))
  | .connect =>
    some ({ d.setSession d.accepted newSession with accepted := d.accepted + 1 },[])
  | .frame i frame env => (d.sessions i).map (fun s => d.handleFrame cfg env i s frame)
  | .malformed i => (d.sessions i).map (fun s => (d.setSession i { s with closed := true },[]))
  | .drained i room =>
    (d.sessions i).map (fun s =>
      let r := { s with drainPending := false }.flush room
      (d.setSession i r.1,r.2.map (Prod.mk i)))
  | .socketClosed i => (d.sessions i).map (fun s => (d.socketClosed i s,[]))
  | .broadcast row env => some (d.broadcast cfg env row)
  | .stop now =>
    some
      ({ d with sessions := fun i => (d.sessions i).map (fun s => (s.degrade now .daemonShutdown).1) },
        (List.range d.accepted).flatMap (fun i =>
          ((d.sessions i).elim [] (fun s => (s.degrade now .daemonShutdown).2)).map (Prod.mk i)))

end Daemon

end WickedBus
