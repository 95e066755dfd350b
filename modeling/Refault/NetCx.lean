import Refault.SimCx
import Refault.Net

/-!
# Refault.NetCx — the simulation with a `Net`

`NetCx` is a simulation in which `Net` is registered, with the code of `net.rs` that runs in it: the calls of
user code (`NetOp`), the futures that `Inboxes::enqueue` spawns on `NodeId::INIT`, and the callbacks of `Net`.
Each step is some steps of `SimCx` and some operations of `Net`.  All other user code stays arbitrary; what
it cannot do is touch a future of `enqueue` or the `Sleep` in it, to which it has no handle, nor return from
the destructor of a future while this still owns a socket.

The send function is `custom`, and then user code runs it, with the packet in its hands and `Net` borrowed, or
`perfect_connectivity`.
-/

namespace Refault

/-- The type of `Net`, as a simulator. -/
abbrev netTy : SimTy := 0

inductive SendFunction
  | custom
  | perfectConnectivity (latency : Duration)

/-- How far the future of `enqueue` is: not polled yet, in `sleep_until` with its `Sleep` at `loc`, or past
its end. -/
inductive DeliveryPhase
  | unpolled
  | sleeping (loc : Loc)
  | delivered
deriving DecidableEq

inductive NetHalt
  | halt (h : Halt)
  | panic (p : NetPanic)
deriving DecidableEq

/-- A call of the net's API by user code; `owner` is the task whose future the socket goes into, if any. -/
inductive NetOp (P : Type)
  | openSocket (port : Id) (ty : TypeId) (owner : Option Id)
  | dropSocket (r : InboxRc)
  | moveSocket (r : InboxRc) (owner : Option Id)
  | receive (r : InboxRc)
  | pollReceive (r : InboxRc) (clone : Option P)
  | dropReceive (r : InboxRc)
  | newPacket (src dst : Addr) (packet : Packet P) (serviceLevel : ServiceLevel)
  | clonePacket (rc : PacketRc)
  | dropPacket (rc : PacketRc)
  | send (port : Id) (dst : Addr) (packet : Packet P) (serviceLevel : ServiceLevel)
  | socketSend (r : InboxRc) (dst : Addr) (packet : Packet P) (serviceLevel : ServiceLevel)
  | enqueuePacket (at_ : Instant) (rc : PacketRc)
  | enqueueError (at_ : Instant) (dst : Addr) (ty : TypeId) (kind : ErrorKind)

/-- A step: of the simulation or of other user code, a call of user code, a turn of `start_node`'s loop, or a
part of the future of `enqueue`, whose `Sleep` is made at `loc`, and for which `v` is `()`. -/
inductive NetLabel (V P : Type)
  | sim (l : Label V)
  | user (op : NetOp P)
  | drain (r : InboxRc)
  | delivery (loc : Loc) (v : V)

structure NetCx (V Q P : Type) where
  sim : SimCx V Q
  net : Net P
  phase : Id → Option DeliveryPhase
  netSleep : Loc → Bool
  owner : InboxRc → Option Id

namespace NetCx

variable {V Q P : Type}

abbrev disabled {A : Type} : Except NetHalt A := .error (.halt .disabled)

/-- A step of the simulation. -/
def inSim {A : Type} (x : Except Halt A) : Except NetHalt A := x.mapError .halt

/-- An operation of `Net`. -/
def inNet {A : Type} (x : Except NetPanic A) : Except NetHalt A := x.mapError .panic

/-- `Instant + Duration`. -/
def after (t : Instant) (d : Duration) : Except NetPanic Instant :=
  match t.checkedAdd d with
  | none => .error .instantOverflow
  | some t => .ok t

def isDelivery (s : NetCx V Q P) (id : Id) : Bool := (s.phase id).isSome

/-- User code runs, and not the future of `enqueue` or what drops it. -/
def userCode (s : NetCx V Q P) : Bool :=
  match s.sim.stack with
  | [] => false
  | .poll _ :: _ => !s.sim.ex.running.any fun t => s.isDelivery t.id
  | .discard id _ _ :: _ => !s.isDelivery id
  | f :: _ => f.isUser

/-- User code has a `&mut Net`: the closure that `Net` was taken out of its slot for is not that of `enqueue`. -/
def hasNet (s : NetCx V Q P) : Bool :=
  s.sim.stack.any (fun | .withSim _ ty => decide (ty = netTy) | _ => false) &&
    !s.sim.ex.running.any fun t => s.isDelivery t.id

/-- The future of `id` exists, and a socket can be in it. -/
def canOwn (s : NetCx V Q P) (id : Id) : Bool :=
  s.sim.ex.running.any (fun t => decide (t.id = id)) || (s.sim.ex.tasks id).any fun entry => entry.task.isSome

/-- The future of `id` owns no socket. -/
def ownsNothing (s : NetCx V Q P) (id : Id) : Bool :=
  (List.range s.net.inboxCount).all fun r => !(decide (s.owner r = some id) && (s.net.sockets r).isSome)

/-- The inboxes of the current node are in `Inboxes` under that node. -/
def onNode (s : NetCx V Q P) (r : InboxRc) : Bool :=
  (s.net.created r).any fun key => decide (s.net.inboxes key = some r) && decide (key.1.node = s.sim.currentNode)

/-- `Net::start_node` or `Net::create_node` is running. -/
def inStartNode (s : NetCx V Q P) : Bool :=
  match s.sim.stack with
  | .callback _ ty :: .sims cb _ _ _ :: _ => decide (ty = netTy) && decide (cb ≠ .stop)
  | _ => false

/-- The loop of `start_node` is at its end. -/
def drained (s : NetCx V Q P) : Bool :=
  (List.range s.net.inboxCount).all fun r => !s.onNode r || (s.net.buffer r).isEmpty

variable [KeyedQueue Q Loc Instant]

def install (b : SimBuilder) : NetCx V Q P where
  sim := SimCx.install b
  net := .new
  phase _ := none
  netSleep _ := false
  owner _ := none

/-- `Instant::now()`. -/
def now (s : NetCx V Q P) : Instant := SimCx.clockGettime s.sim.time

/-! ## Calls of user code -/

omit [KeyedQueue Q Loc Instant] in
/-- `SimulatorHandle::get` and `with` around a closure that runs no user code. -/
def withNet (s : NetCx V Q P) : Except NetHalt Unit := do
  let _ ← inSim (s.sim.withSimulator netTy)
  pure ()

omit [KeyedQueue Q Loc Instant] in
def openSocket (s : NetCx V Q P) (port : Id) (ty : TypeId) (owner : Option Id) : Except NetHalt (NetCx V Q P) := do
  s.withNet
  match s.net.openSocket (⟨s.sim.currentNode, port⟩, ty) with
  | .error _ => pure s
  | .ok (r, net) => pure { s with net := net, owner := Function.update s.owner r owner }

omit [KeyedQueue Q Loc Instant] in
def dropSocket (s : NetCx V Q P) (r : InboxRc) : Except NetHalt (NetCx V Q P) :=
  match s.net.sockets r with
  | none => disabled
  | some sock => do
    s.withNet
    let net ← inNet (s.net.dropSocket r sock)
    pure { s with net := net }

omit [KeyedQueue Q Loc Instant] in
/-- `NodeId::INIT.spawn` of a future of `enqueue`. -/
def spawnDelivery (s : NetCx V Q P) : Except NetHalt (Id × NetCx V Q P) := do
  let (id, sim) ← inSim (s.sim.spawnTaskOnNode initNode)
  pure (id, { s with sim := sim, phase := Function.update s.phase id (some .unpolled) })

omit [KeyedQueue Q Loc Instant] in
def enqueuePacket (s : NetCx V Q P) (at_ : Instant) (rc : PacketRc) : Except NetHalt (NetCx V Q P) :=
  match s.net.packets rc with
  | none => disabled
  | some w =>
    if 0 < s.net.held rc then do
      let (id, s) ← s.spawnDelivery
      pure { s with net := s.net.enqueuePacket id at_ rc w }
    else disabled

omit [KeyedQueue Q Loc Instant] in
def enqueueError (s : NetCx V Q P) (at_ : Instant) (dst : Addr) (ty : TypeId) (kind : ErrorKind) :
    Except NetHalt (NetCx V Q P) := do
  let (id, s) ← s.spawnDelivery
  pure { s with net := s.net.enqueueError id at_ dst ty kind }

omit [KeyedQueue Q Loc Instant] in
/-- `perfect_connectivity`. -/
def perfectConnectivity (s : NetCx V Q P) (latency : Duration) (rc : PacketRc) : Except NetHalt (NetCx V Q P) := do
  let t ← inNet (after s.now latency)
  s.enqueuePacket t rc

omit [KeyedQueue Q Loc Instant] in
/-- `Net::send_wrapped`, on a packet made for it. -/
def sendWrapped (f : SendFunction) (s : NetCx V Q P) (src dst : Addr) (packet : Packet P)
    (serviceLevel : ServiceLevel) : Except NetHalt (NetCx V Q P) :=
  if src.node = s.sim.currentNode then
    let (rc, net) := s.net.newPacket src dst packet serviceLevel
    let s := { s with net := net.note (.sent rc s.now) }
    match f with
    | .custom => .ok s
    | .perfectConnectivity latency => s.perfectConnectivity latency rc
  else .error (.panic .sendNode)

omit [KeyedQueue Q Loc Instant] in
def userOp (f : SendFunction) (s : NetCx V Q P) : NetOp P → Except NetHalt (NetCx V Q P)
  | .openSocket port ty owner => if owner.all s.canOwn then s.openSocket port ty owner else disabled
  | .dropSocket r => s.dropSocket r
  | .moveSocket r owner =>
    if (s.net.sockets r).isSome && owner.all s.canOwn then
      .ok { s with owner := Function.update s.owner r owner }
    else disabled
  | .receive r => if (s.net.sockets r).isSome then .ok { s with net := s.net.receive r } else disabled
  | .pollReceive r clone =>
    match s.net.created r with
    | none => disabled
    | some key =>
      if 0 < s.net.receivers r then do
        let net ← inNet (s.net.pollReceive r key.2 clone)
        pure { s with net := net }
      else disabled
  | .dropReceive r => if 0 < s.net.receivers r then .ok { s with net := s.net.dropReceive r } else disabled
  | .newPacket src dst packet serviceLevel => .ok { s with net := (s.net.newPacket src dst packet serviceLevel).2 }
  | .clonePacket rc => if 0 < s.net.held rc then .ok { s with net := s.net.clonePacket rc } else disabled
  | .dropPacket rc => if 0 < s.net.held rc then .ok { s with net := s.net.dropPacket rc } else disabled
  | .send port dst packet serviceLevel =>
    if s.hasNet then s.sendWrapped f ⟨s.sim.currentNode, port⟩ dst packet serviceLevel else disabled
  | .socketSend r dst packet serviceLevel =>
    match s.net.sockets r with
    | none => disabled
    | some sock => if s.hasNet then s.sendWrapped f sock.localAddr dst packet serviceLevel else disabled
  | .enqueuePacket at_ rc => if s.hasNet then s.enqueuePacket at_ rc else disabled
  | .enqueueError at_ dst ty kind => if s.hasNet then s.enqueueError at_ dst ty kind else disabled

/-! ## The futures of `enqueue` -/

/-- `sleep_until(at).await` with its `Sleep` at `loc`, and when that is ready the closure at the end. -/
def pollDelivery (s : NetCx V Q P) (id : Id) (d : Delivery) (loc : Loc) : Except NetHalt (NetCx V Q P) := do
  let sim ← inSim (s.sim.step (.user (.pollSleep loc (.task id))))
  match sim.ts.sleeps loc with
  | some ⟨_, .waiting _⟩ =>
    let sim ← inSim (sim.step (.user (.done none)))
    pure { s with sim := sim, phase := Function.update s.phase id (some (.sleeping loc)) }
  | _ =>
    let sim ← inSim (sim.step (.user (.dropSleep loc)))
    let sim ← inSim (sim.step (.user (.withSimulator netTy)))
    pure { s with
      sim := sim
      phase := Function.update s.phase id (some .delivered)
      netSleep := Function.update s.netSleep loc false
      net := s.net.deliver id s.now d }

/-- The drop of `enqueue`'s future: its message, and its `Sleep` if there is one. -/
def discardDelivery (s : NetCx V Q P) (id : Id) : Except NetHalt (NetCx V Q P) :=
  let gone : NetCx V Q P := { s with
    phase := Function.update s.phase id none
    net := match s.net.inFlight id with
      | none => s.net
      | some d => s.net.abortDelivery id d }
  match s.phase id with
  | none => disabled
  | some (.sleeping loc) => do
    let sim ← inSim (s.sim.step (.user (.dropSleep loc)))
    pure { gone with sim := sim, netSleep := Function.update s.netSleep loc false }
  | some _ => .ok gone

/-- A poll of `enqueue`'s future, or its drop. -/
def delivery (s : NetCx V Q P) (loc : Loc) (v : V) : Except NetHalt (NetCx V Q P) :=
  match s.sim.stack with
  | .poll _ :: _ =>
    match s.sim.ex.running with
    | none => disabled
    | some t =>
      match s.phase t.id, s.net.inFlight t.id with
      | some .unpolled, some d => do
        let sim ← inSim (s.sim.step (.user (.newSleep loc d.at_)))
        ({ s with sim := sim, netSleep := Function.update s.netSleep loc true } :
          NetCx V Q P).pollDelivery t.id d loc
      | some (.sleeping loc), some d => s.pollDelivery t.id d loc
      | some .delivered, _ => do
        let sim ← inSim (s.sim.step (.user (.done (some v))))
        pure { s with sim := sim }
      | _, _ => disabled
  | .discard id _ _ :: _ => s.discardDelivery id
  | _ => disabled

/-! ## Steps -/

omit [KeyedQueue Q Loc Instant] in
/-- What user code can call of the simulation. -/
def permits (s : NetCx V Q P) : Op V → Bool
  | .wake id | .abort id | .pollHandle id => !s.isDelivery id
  | .pollSleep loc _ | .dropSleep loc => !s.netSleep loc
  | .done _ =>
    match s.sim.stack with
    | .discard id _ _ :: _ => s.ownsNothing id
    | _ => !s.inStartNode || s.drained
  | _ => true

omit [KeyedQueue Q Loc Instant] in
/-- `Net` is the simulator that `ContextInstallGuard::destroy` drops next. -/
def dropsNet (s : NetCx V Q P) : Bool :=
  match s.sim.stack with
  | .dropSims _ :: _ => decide (s.sim.simulators.getLast? = some (some netTy))
  | _ => false

def simStep (s : NetCx V Q P) : Label V → Except NetHalt (NetCx V Q P)
  | .user op =>
    if s.userCode && s.permits op then do
      let sim ← inSim (s.sim.step (.user op))
      pure { s with sim := sim }
    else disabled
  | .run order => do
    let sim ← inSim (s.sim.step (.run order))
    pure { s with sim := sim, net := if s.dropsNet then s.net.dropNet else s.net }

def step (f : SendFunction) (s : NetCx V Q P) : NetLabel V P → Except NetHalt (NetCx V Q P)
  | .sim l => s.simStep l
  | .user op => if s.userCode then s.userOp f op else disabled
  | .drain r => if s.inStartNode && s.onNode r then .ok { s with net := s.net.drain r } else disabled
  | .delivery loc v => s.delivery loc v

/-- The states of the simulation that `b` builds, with a `Net` that sends by `f`. -/
def Reachable (f : SendFunction) (b : SimBuilder) (s : NetCx V Q P) : Prop := Machine.Steps (step f) (install b) s

end NetCx

end Refault
