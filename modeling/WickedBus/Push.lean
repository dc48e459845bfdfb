import WickedBus.AtLeastOnce
import WickedBus.Registry

namespace WickedBus

open WickedBus.Filter (Text)

structure PushOpts where
  cursorId : String
  subscriberId : String
  filter : Option QueryFilter
  deriving DecidableEq, Repr

inductive Outgoing where
  | hello (cursor : ℤ)
  | ack (eventId : ℤ)
  deriving DecidableEq, Repr

structure Client where
  inbox : List Frame
  waiting : Bool
  hand : Option Frame
  closed : Bool
  deriving DecidableEq, Repr

structure Conn where
  session : Session
  subscribed : Bool
  toDaemon : List Outgoing
  toClient : List Frame
  client : Client
  deriving DecidableEq, Repr

inductive GenPoint where
  | top
  | select (filter : Text) (lastEventId : ℤ)
  | catchUp (batch : List EventRow)
  | push
  | pollDrain (batch : List EventRow)
  | reprobe
  deriving DecidableEq, Repr

structure GenEnv where
  ackFails : Bool
  connects : Bool
  now : ℤ
  deriving DecidableEq, Repr

structure PushState where
  world : World
  produced : List EventRow
  conn : Option Conn
  gen : Option GenPoint
  yielded : List EventRow

inductive PushAction where
  | world (a : Action)
  | arrive (k : ℕ) (now : ℤ) (room : ℕ)
  | lose (k : ℕ)
  | daemonRead
  | drained (room : ℕ)
  | stopDaemon (now : ℤ)
  | unregister
  | disconnect
  | clientRead
  | gen (env : GenEnv)
  | stop
  | start (connects : Bool)
  deriving DecidableEq, Repr

def pushBatchSize : ℕ := 100

namespace Client

def deliver (c : Client) (frame : Frame) : Client :=
  if c.waiting then { c with waiting := false, hand := some frame }
  else { c with inbox := c.inbox ++ [frame] }

def endIterator (c : Client) : Client := { c with closed := true, waiting := false }

def handleFrame (c : Client) : Frame → Client
  | .notify eventId event => c.deliver (.notify eventId event)
  | .degrade _ => c.endIterator
  | .pong => c

def next (c : Client) : Option (Frame × Client) :=
  match c.hand, c.inbox with
  | some frame, _ => some (frame,{ c with hand := none })
  | none, [] => none
  | none, frame :: inbox => if c.closed then none else some (frame,{ c with inbox := inbox })

end Client

namespace Conn

def opened (cursor : ℤ) : Conn := ⟨newSession,false,[.hello cursor],[],⟨[],false,none,false⟩⟩

def written (c : Conn) (r : Session × List Frame) : Conn :=
  { c with session := r.1, toClient := c.toClient ++ r.2 }

def offer (c : Conn) (cfg : DaemonConfig) (now : ℤ) (room : ℕ) (row : EventRow) : Conn :=
  if c.subscribed && c.session.receives row then
    c.written (c.session.enqueue cfg now room (cfg.notify row))
  else c

def sendAck (c : Conn) (eventId : ℤ) : Conn :=
  if c.client.closed then c else { c with toDaemon := c.toDaemon ++ [.ack eventId] }

def daemonRead (c : Conn) (opts : PushOpts) : Option Conn :=
  match c.toDaemon with
  | [] => none
  | .hello cursor :: rest =>
    some { c with
      session := c.session.hello opts.subscriberId (some cursor) opts.filter
      subscribed := true
      toDaemon := rest }
  | .ack eventId :: rest => some { c with session := c.session.acked (some eventId), toDaemon := rest }

def clientRead (c : Conn) : Option Conn :=
  match c.toClient with
  | [] => none
  | frame :: rest => some { c with toClient := rest, client := c.client.handleFrame frame }

def frames (c : Conn) : List Frame :=
  c.session.queue ++ c.toClient ++ c.client.inbox ++ c.client.hand.toList

end Conn

def position (db : Db) (cursorId : String) : ℤ :=
  ((db.cursors.get? cursorId).map CursorRow.lastEventId).getD 0

def resolveFromLive (db : Db) : Frame → Option EventRow
  | .notify _ (some event) => some event
  | .notify eventId none => db.events.get? eventId
  | _ => none

def persistAck (opts : PushOpts) (env : GenEnv) (db : Db) (eventId : ℤ) : Db :=
  if env.ackFails then db
  else
    match ack db opts.cursorId eventId env.now with
    | .ok db' => db'
    | .error _ => db

namespace PushState

def hand (t : PushState) (opts : PushOpts) (env : GenEnv) (conn : Option Conn) (e : EventRow)
    (point : GenPoint) : PushState :=
  { t with
    world := { t.world with bus := persistAck opts env t.world.bus e.eventId }
    conn := conn.map (fun c => c.sendAck e.eventId)
    gen := some point
    yielded := t.yielded ++ [e] }

def pollRead (t : PushState) (opts : PushOpts) : Except BusError (Text × ℤ) := do
  let cursor ← pollCursor t.world.bus opts.cursorId
  pollWindow t.world.bus cursor
  let filter ← pollFilter t.world.bus cursor
  pure (filter,cursor.lastEventId)

def enterPush (t : PushState) (opts : PushOpts) (connects : Bool) : Option Conn :=
  if connects then some (.opened (position t.world.bus opts.cursorId)) else none

def pushStep (t : PushState) (opts : PushOpts) (env : GenEnv) : Option PushState :=
  match t.conn with
  | none => some { t with gen := some .top }
  | some c =>
    match c.client.next with
    | some (frame,client) =>
      match resolveFromLive t.world.bus frame with
      | none => some { t with conn := some { c with client := client } }
      | some e => some (t.hand opts env (some { c with client := client }) e .push)
    | none =>
      if c.client.closed then some { t with conn := none, gen := some .top }
      else if c.client.waiting then none
      else some { t with conn := some { c with client := { c.client with waiting := true } } }

def genStep (t : PushState) (opts : PushOpts) (env : GenEnv) : GenPoint → Option PushState
  | .top =>
    match t.pollRead opts with
    | .error _ => some { t with gen := none, conn := none }
    | .ok r => some { t with gen := some (.select r.1 r.2) }
  | .select filter lastEventId =>
    let batch := pollSelect t.world.bus filter lastEventId pushBatchSize
    some { t with gen := some (if t.conn.isSome then .catchUp batch else .pollDrain batch) }
  | .catchUp [] => some { t with gen := some .push }
  | .catchUp (e :: rest) => some (t.hand opts env t.conn e (.catchUp rest))
  | .push => t.pushStep opts env
  | .pollDrain [] => some { t with gen := some .reprobe }
  | .pollDrain (e :: rest) => some (t.hand opts env t.conn e (.pollDrain rest))
  | .reprobe => some { t with gen := some .top, conn := t.enterPush opts env.connects }

def acceptedBy (w : World) : Action → List EventRow
  | .bus op => acceptedRows w.bus op
  | _ => []

def withConn (t : PushState) (f : Conn → Option Conn) : Option PushState :=
  (t.conn.bind f).map (fun c => { t with conn := some c })

def step (opts : PushOpts) (cfg : DaemonConfig) (t : PushState) : PushAction → Option PushState
  | .world a =>
    (t.world.step a).map (fun w => { t with world := w, produced := t.produced ++ acceptedBy t.world a })
  | .arrive k now room =>
    (t.produced[k]?).map (fun row =>
      { t with produced := t.produced.eraseIdx k, conn := t.conn.map (fun c => c.offer cfg now room row) })
  | .lose k => some { t with produced := t.produced.eraseIdx k }
  | .daemonRead => t.withConn (fun c => c.daemonRead opts)
  | .drained room =>
    t.withConn (fun c => some (c.written ({ c.session with drainPending := false }.flush room)))
  | .stopDaemon now => t.withConn (fun c => some (c.written (c.session.degrade now .daemonShutdown)))
  | .unregister => t.withConn (fun c => some { c with subscribed := false })
  | .disconnect =>
    t.withConn (fun c => some { c with
      subscribed := false, toDaemon := [], toClient := [], client := c.client.endIterator })
  | .clientRead => t.withConn Conn.clientRead
  | .gen env => t.gen.bind (t.genStep opts env)
  | .stop => some { t with gen := none, conn := none }
  | .start connects =>
    if t.gen.isSome then none else some { t with gen := some .top, conn := t.enterPush opts connects }

end PushState

def startedPush (w : World) : PushState := ⟨w,[],none,none,[]⟩

end WickedBus
