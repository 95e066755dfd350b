import Refault.Lib.Machine
import Refault.Executor
import Refault.Net

/-!
# Refault.Tower — RPC over the net

Any number of `Client`s and of `run_server`s on one `Net`, with the calls of the clients and the tasks that
the servers spawn.  A step is what one of these futures does between two places where it waits, a poll of a
client's task that begins or ends, an abort of it, a drop of one of the futures, a node that is stopped or
started, a call of user code, or something that happens in the net (`NetEvent`): the send function has the
packet of a `net.send` in its hands, to enqueue or to drop it whenever it likes (but not to clone it), and it
answers at once or with a future that resolves later, to `Ok` or to an error. What a service answers, and
when, is up to it.

User code runs between any two steps, so also inside a poll of a client's task (the send function, the future
it answers, a destructor) and in `poll_ready` and `call` of a service: it can drop the client or stop the node
there.  A task that is aborted in its own poll is dropped after it, by the executor, which has the context
borrowed then.  A drop of a `Client` or of the future of `run_server` says whether it happens so (`borrowed`).

Left out: what user code panics on (the send function and its futures, services, wakers, destructors, an event
handler), and its calls from a closure that has the context or the `Net` in use, other than those two drops.
`Net` is registered.  The packets of `TowerRequest` and `TowerResponse` are those of the net; packets of other
types go to other inboxes.  The futures of a server, and those it spawns, stay on its node, and no future is
polled after its end.  The future of `Socket::receive` is made when there is something to receive: before that
it does nothing but wait.
-/

namespace Refault

inductive TowerRequest (R : Type)
  | start (req : R) (id : Id)

inductive TowerResponse (R : Type)
  | complete (result : R) (id : Id)

/-- What the packets carry. -/
inductive TowerPacket (A B E : Type)
  | request (r : TowerRequest A)
  | response (r : TowerResponse (Except E B))

/-- `TowerRequest`, as a packet type. -/
abbrev requestTy : TypeId := 0

/-- `TowerResponse`, as a packet type. -/
abbrev responseTy : TypeId := 1

/-- An `std::io::Error` is known by its kind. -/
abbrev TowerResult (B E : Type) := Except (E ⊕ ErrorKind) B

abbrev ClientId := ℕ
abbrev CallId := ℕ
abbrev ServerId := ℕ
abbrev JobId := ℕ

/-- The `futures::channel::oneshot` of a call: not made yet, with its `Sender` somewhere, with a value, or
without a `Sender`. Of that channel is assumed what it documents: `send` gives its value to the `Receiver`,
once, and a `Sender` that is dropped unused cancels it. -/
inductive Responder (R : Type)
  | none
  | unsent
  | sent (r : R)
  | canceled

namespace Responder

variable {R : Type}

/-- `oneshot::Sender::send`. -/
def send (r : R) : Responder R → Responder R
  | .unsent => .sent r
  | o => o

/-- The `Sender` is dropped. -/
def cancel : Responder R → Responder R
  | .unsent => .canceled
  | o => o

end Responder

/-- What the tasks of a `Client` own for good. -/
structure Client where
  localAddr : Addr
  remote : Addr
  inbox : InboxRc

/-- The background tasks of a client: `send_task` and `recv_task`. -/
inductive ClientTask
  | send (c : ClientId)
  | recv (c : ClientId)
deriving DecidableEq

def ClientTask.client : ClientTask → ClientId
  | .send c | .recv c => c

/-- Where `send_task` is: at `r.next()`, or at the future of `net.send`. -/
inductive SendTask
  | receiving
  | sending (id : Id) (k : CallId)
  | dropped
deriving DecidableEq

/-- The request in the task, by its id, with the call whose `Sender` is there. -/
def SendTask.entries : SendTask → List (Id × CallId)
  | .sending id k => [(id, k)]
  | _ => []

/-- A future of `Client::call`. -/
structure Call (A : Type) where
  client : ClientId
  req : A
deriving DecidableEq

/-- How far it is: not polled, in `sender.send(..).await`, in `r.await`, or past its end. -/
inductive CallPhase (B E : Type)
  | created
  | sending
  | receiving
  | returned (r : TowerResult B E)
  | dropped
deriving DecidableEq

/-- A future of `run_server`, with its socket. -/
structure Server where
  localAddr : Addr
  inbox : InboxRc

/-- A request as `run_server` receives it, and the packet it was in. -/
structure Request (A : Type) where
  rc : PacketRc
  req : A
  id : Id
  address : Addr

/-- Where `run_server` waits: in `socket.receive()`, or in `service.poll_ready`; or its end. -/
inductive ServerPhase (A E : Type)
  | receiving
  | readying (request : Request A)
  | returned (e : E ⊕ ErrorKind)
  | dropped

/-- The task that `run_server` spawns for a request. -/
structure Job (A : Type) where
  localAddr : Addr
  request : Request A

/-- Where it waits: for the service, or for the future of `net.send`. -/
inductive JobPhase
  | computing
  | sending
  | done

inductive TowerPanic
  | net (p : NetPanic)
  | executor (p : Panic)
  /-- `Client::new`: `Socket::open(..).unwrap()` -/
  | socketOpen
  /-- `poll_ready`: `x.unwrap()` -/
  | pollReady
  /-- `send_task`: `r.next().await.unwrap()` -/
  | noRequest
  /-- `recv_task`: `debug_assert!(addr == remote)` -/
  | addrMismatch
  /-- `recv_task`: `remove(&id).unwrap()` -/
  | responderMissing
deriving DecidableEq

inductive TowerHalt
  | panic (p : TowerPanic)
  | disabled
deriving DecidableEq

/-- What is observed of a call. -/
inductive TowerObs (B E : Type)
  /-- `send_task` has called `net.send` for the call, with the packet `rc` -/
  | sent (id : Id) (k : CallId) (rc : PacketRc)
  /-- the future of this `net.send` has resolved to an error -/
  | failed (id : Id) (k : CallId) (kind : ErrorKind)
  /-- the responder was taken out of the map because of an error of the socket -/
  | cleared (id : Id) (k : CallId) (kind : ErrorKind)
  /-- the task `j` of a server has called `net.send` with the packet `rc` -/
  | replied (j : JobId) (result : Except E B) (rc : PacketRc)
  /-- `recv_task` has passed on what was in the packet `rc` -/
  | answered (k : CallId) (result : Except E B) (rc : PacketRc)

/-- What the future of `net.send` answers; while it is pending, its poll goes on until that of the task ends. -/
inductive SendOutcome
  | pending
  | ready (r : Except ErrorKind Unit)

/-- What happens in the net: what the send function does with a packet, and the end of a future of `enqueue`. -/
inductive NetEvent
  | enqueuePacket (id : Id) (at_ : Instant) (rc : PacketRc)
  | dropPacket (rc : PacketRc)
  | enqueueError (id : Id) (at_ : Instant) (dst : Addr) (ty : TypeId) (kind : ErrorKind)
  | deliver (id : Id) (now : Instant)
  | abortDelivery (id : Id)
  | drain (key : Key)

inductive TowerLabel (A B E : Type)
  | newClient (node : NodeId) (remote : Addr)
  | pollReady (c : ClientId)
  | call (c : ClientId) (req : A)
  | pollCall (k : CallId)
  | dropCall (k : CallId)
  | dropClient (c : ClientId) (borrowed : Bool)
  | pollTask (t : ClientTask)
  | pollSend (c : ClientId) (outcome : SendOutcome)
  | pollRecv (c : ClientId)
  | endPoll
  | abort (t : ClientTask)
  | runServer (node : NodeId) (port : Id)
  | pollServer (v : ServerId)
  | serviceReady (v : ServerId) (r : Except E Unit)
  | dropServer (v : ServerId) (borrowed : Bool)
  | complete (j : JobId) (result : Except E B) (outcome : SendOutcome)
  | pollJob (j : JobId)
  | dropJob (j : JobId)
  | net (e : NetEvent)
  | stopNode (node : NodeId)
  | startNode (node : NodeId)
  | newId

structure TowerCx (A B E : Type) where
  net : Net (TowerPacket A B E)
  preNextGlobalId : ℕ
  /-- the run level of the nodes: whether one is stopped -/
  stopped : NodeId → Bool
  /-- the background task that the executor polls -/
  polled : Option ClientTask
  /-- it was aborted in this poll -/
  aborted : Bool
  clients : ClientId → Option Client
  clientCount : ℕ
  live : ClientId → Bool
  /-- the messages in the `futures::channel::mpsc` of the client, each a request with its responder: they are
  taken in the order in which they were sent, and dropped with the receiver, after which no message is sent -/
  messages : ClientId → List CallId
  sendTask : ClientId → SendTask
  recvTask : ClientId → Bool
  responders : ClientId → List (Id × CallId)
  calls : CallId → Option (Call A)
  callCount : ℕ
  phase : CallId → CallPhase B E
  responder : CallId → Responder (TowerResult B E)
  servers : ServerId → Option Server
  serverCount : ℕ
  serverPhase : ServerId → ServerPhase A E
  jobs : JobId → Option (Job A)
  jobCount : ℕ
  jobPhase : JobId → JobPhase
  log : List (TowerObs B E)

namespace TowerCx

variable {A B E : Type}

abbrev disabled {X : Type} : Except TowerHalt X := .error .disabled

def panic {X : Type} (p : TowerPanic) : Except TowerHalt X := .error (.panic p)

/-- An operation of `Net`. -/
def inNet {X : Type} (x : Except NetPanic X) : Except TowerHalt X := x.mapError fun p => .panic (.net p)

def install : TowerCx A B E where
  net := .new
  preNextGlobalId := 0
  stopped _ := false
  polled := none
  aborted := false
  clients _ := none
  clientCount := 0
  live _ := false
  messages _ := []
  sendTask _ := .dropped
  recvTask _ := false
  responders _ := []
  calls _ := none
  callCount := 0
  phase _ := .dropped
  responder _ := .none
  servers _ := none
  serverCount := 0
  serverPhase _ := .dropped
  jobs _ := none
  jobCount := 0
  jobPhase _ := .done
  log := []

/-- `Id::new`. -/
def newId (s : TowerCx A B E) : Except TowerHalt (Id × TowerCx A B E) := do
  let id ← (Refault.newId s.preNextGlobalId).mapError fun p => TowerHalt.panic (.executor p)
  pure (id, { s with preNextGlobalId := id })

def note (s : TowerCx A B E) (os : List (TowerObs B E)) : TowerCx A B E := { s with log := s.log ++ os }

/-- What is done with the `Sender`s of some calls. -/
def onResponders (s : TowerCx A B E) (ks : List CallId)
    (f : Responder (TowerResult B E) → Responder (TowerResult B E)) : TowerCx A B E :=
  { s with responder := fun k => if k ∈ ks then f (s.responder k) else s.responder k }

/-! ## The client -/

/-- `Executor::spawn`, of which the `Id` of the task is left. -/
def spawn (s : TowerCx A B E) (node : NodeId) : Except TowerHalt (TowerCx A B E) :=
  if s.stopped node then panic (.executor (.nodeIsStopped node))
  else do
    let (_, s) ← s.newId
    pure s

/-- `Client::new`. -/
def newClient (s : TowerCx A B E) (node : NodeId) (remote : Addr) : Except TowerHalt (TowerCx A B E) := do
  let (id, s) ← s.newId
  match s.net.openSocket (⟨node, id⟩, responseTy) with
  | .error _ => panic .socketOpen
  | .ok (r, net) => do
    -- `send_task` and `recv_task`
    let s ← ({ s with net := net } : TowerCx A B E).spawn node
    let s ← s.spawn node
    let c := s.clientCount
    pure { s with
      clients := Function.update s.clients c (some ⟨⟨node, id⟩, remote, r⟩)
      clientCount := c + 1
      live := Function.update s.live c true
      messages := Function.update s.messages c []
      sendTask := Function.update s.sendTask c .receiving
      recvTask := Function.update s.recvTask c true
      responders := Function.update s.responders c [] }

/-- The receiver of the `mpsc` channel is there, in `send_task`. -/
def isOpen (s : TowerCx A B E) (c : ClientId) : Bool := s.sendTask c ≠ .dropped

/-- `Client::poll_ready`; its own sender never waits. -/
def pollReady (s : TowerCx A B E) (c : ClientId) : Except TowerHalt (TowerCx A B E) :=
  if s.live c then (if s.isOpen c then .ok s else panic .pollReady) else disabled

/-- `Client::call`. -/
def call (s : TowerCx A B E) (c : ClientId) (req : A) : Except TowerHalt (TowerCx A B E) :=
  if s.live c then
    .ok { s with
      calls := Function.update s.calls s.callCount (some ⟨c, req⟩)
      callCount := s.callCount + 1
      phase := Function.update s.phase s.callCount .created
      responder := Function.update s.responder s.callCount .none }
  else disabled

/-- The future of a call returns. -/
def returns (s : TowerCx A B E) (k : CallId) (r : TowerResult B E) : TowerCx A B E :=
  { s with phase := Function.update s.phase k (.returned r) }

/-- `Right(ErrorKind::ConnectionReset.into())`. -/
def connectionReset : TowerResult B E := .error (.inr .connectionReset)

/-- `r.await.unwrap_or_else(..)`. -/
def awaitResponder (s : TowerCx A B E) (k : CallId) : TowerCx A B E :=
  match s.responder k with
  | .sent r => s.returns k r
  | .unsent => { s with phase := Function.update s.phase k .receiving }
  | .none | .canceled => s.returns k connectionReset

/-- A poll of the future of `Client::call`.  In the channel, which has no buffer, the sender waits until its
message is taken. -/
def pollCall (s : TowerCx A B E) (k : CallId) : Except TowerHalt (TowerCx A B E) :=
  match s.calls k with
  | none => disabled
  | some call =>
    match s.phase k with
    | .created =>
      if s.isOpen call.client then
        .ok { s with
          messages := Function.update s.messages call.client (s.messages call.client ++ [k])
          phase := Function.update s.phase k .sending
          responder := Function.update s.responder k .unsent }
      else .ok (s.returns k connectionReset)
    | .sending => if (s.messages call.client).contains k then .ok s else .ok (s.awaitResponder k)
    | .receiving => .ok (s.awaitResponder k)
    | .returned _ | .dropped => disabled

/-- The future of a call is dropped before it returns. -/
def dropCall (s : TowerCx A B E) (k : CallId) : Except TowerHalt (TowerCx A B E) :=
  match s.calls k with
  | none => disabled
  | some _ =>
    match s.phase k with
    | .returned _ | .dropped => disabled
    | _ => .ok { s with phase := Function.update s.phase k .dropped }

/-- A `Sender` of the `mpsc` channel is in the future of the call. -/
def hasSender (s : TowerCx A B E) (c : ClientId) (k : CallId) : Bool :=
  (s.calls k).any (fun call => decide (call.client = c)) &&
    (match s.phase k with
      | .returned _ | .dropped => false
      | _ => true)

/-- `r.next()` answers `None`. -/
def hungUp (s : TowerCx A B E) (c : ClientId) : Bool :=
  !s.live c && (List.range s.callCount).all fun k => !s.hasSender c k

/-- `send_task` after a poll of the future of `net.send`. -/
def sendPolled (s : TowerCx A B E) (c : ClientId) (id : Id) (k : CallId) : SendOutcome → TowerCx A B E
  | .pending => s
  -- the id is a new one, so that no responder is replaced in the map
  | .ready (.ok ()) => { s with
      sendTask := Function.update s.sendTask c .receiving
      responders := Function.update s.responders c ((id, k) :: s.responders c) }
  | .ready (.error kind) =>
    ({ s with sendTask := Function.update s.sendTask c .receiving }.onResponders [k]
      (.send (.error (.inr kind)))).note
      [.failed id k kind]

/-- The poll of `send_task` goes on: from `r.next()` to the future of `net.send` and its `outcome`, or to this
outcome. -/
def pollSend (s : TowerCx A B E) (c : ClientId) (outcome : SendOutcome) : Except TowerHalt (TowerCx A B E) :=
  match s.clients c with
  | none => disabled
  | some cl =>
    if s.polled = some (.send c) then
      match s.sendTask c with
      | .receiving =>
        match s.messages c with
        | [] => if s.hungUp c then panic .noRequest else disabled
        | k :: messages =>
          match s.calls k with
          | none => disabled
          | some call => do
            let (id, s) ← s.newId
            let (rc, net) :=
              s.net.newPacket cl.localAddr cl.remote ⟨requestTy, .request (.start call.req id)⟩ .ofPacket
            let s := { s with
              net := net
              messages := Function.update s.messages c messages
              sendTask := Function.update s.sendTask c (.sending id k) }
            pure ((s.note [.sent id k rc]).sendPolled c id k outcome)
      | .sending id k => .ok (s.sendPolled c id k outcome)
      | .dropped => disabled
    else disabled

/-- The map of the responders is dropped with the second of the tasks. -/
def dropResponders (s : TowerCx A B E) (c : ClientId) : TowerCx A B E :=
  { s.onResponders ((s.responders c).map Prod.snd) .cancel with responders := Function.update s.responders c [] }

/-- `send_task` is dropped, and with it the receiver of the channel and the messages in there. -/
def dropSend (s : TowerCx A B E) (c : ClientId) : TowerCx A B E :=
  let s' := { s.onResponders (s.messages c ++ (s.sendTask c).entries.map Prod.snd) .cancel with
    messages := Function.update s.messages c []
    sendTask := Function.update s.sendTask c .dropped }
  if s.recvTask c then s' else s'.dropResponders c

/-- `recv_task` is dropped, and with it the socket. -/
def dropRecv (s : TowerCx A B E) (c : ClientId) : Except TowerHalt (TowerCx A B E) :=
  match s.clients c with
  | none => disabled
  | some cl => do
    let net ← inNet (s.net.dropSocket cl.inbox ⟨cl.localAddr, responseTy⟩)
    let s' := { s with net := net, recvTask := Function.update s.recvTask c false }
    pure (if s.isOpen c then s' else s'.dropResponders c)

/-- A poll of `recv_task` goes on when there is a message in its inbox, up to the next `socket.receive()`. -/
def pollRecv (s : TowerCx A B E) (c : ClientId) : Except TowerHalt (TowerCx A B E) :=
  match s.clients c with
  | none => disabled
  | some cl =>
    if s.polled = some (.recv c) ∧ s.recvTask c then
      match s.net.buffer cl.inbox with
      | [] => disabled
      | msg :: _ => do
        let net ← inNet ((s.net.receive cl.inbox).pollReceive cl.inbox responseTy none)
        let s := { s with net := net }
        match msg with
        | .error kind =>
          pure ({ s.onResponders ((s.responders c).map Prod.snd) (.send (.error (.inr kind))) with
            responders := Function.update s.responders c [] }.note
              ((s.responders c).map fun p : Id × CallId => .cleared p.1 p.2 kind))
        | .packet rc =>
          match s.net.packets rc with
          | some ⟨header, ⟨_, .response (.complete result id)⟩⟩ =>
            if header.src = cl.remote then
              match (s.responders c).lookup id with
              | none => panic .responderMissing
              | some k =>
                pure ({ s.onResponders [k] (.send (result.mapError .inl)) with
                  responders := Function.update s.responders c ((s.responders c).filter fun p => p.1 ≠ id) }.note
                  [.answered k result rc])
            else panic .addrMismatch
          | _ => disabled
    else disabled

/-- The task is in the executor. -/
def hasTask (s : TowerCx A B E) : ClientTask → Bool
  | .send c => s.isOpen c
  | .recv c => s.recvTask c

/-- The executor begins to poll the task. -/
def pollTask (s : TowerCx A B E) (t : ClientTask) : Except TowerHalt (TowerCx A B E) :=
  if s.polled = none ∧ s.hasTask t then .ok { s with polled := some t, aborted := false } else disabled

/-- `abort_local`: the task is dropped, unless it is polled. -/
def abort (s : TowerCx A B E) (t : ClientTask) : Except TowerHalt (TowerCx A B E) :=
  if s.hasTask t then
    if s.polled = some t then .ok { s with aborted := true }
    else match t with
      | .send c => .ok (s.dropSend c)
      | .recv c => s.dropRecv c
  else .ok s

/-- The poll ends: `r.next()`, the future of `net.send` or `socket.receive()` is pending.  A task that was
aborted is dropped in `with_cx`, where `Socket::drop` cannot have the `Net`. -/
def endPoll (s : TowerCx A B E) : Except TowerHalt (TowerCx A B E) :=
  match s.polled with
  | none => disabled
  | some (.send c) =>
    if s.sendTask c = .receiving ∧ (s.messages c ≠ [] ∨ s.hungUp c) then disabled
    else if s.aborted then .ok { s.dropSend c with polled := none }
    else .ok { s with polled := none }
  | some (.recv c) =>
    match s.clients c with
    | none => disabled
    | some cl =>
      if s.net.buffer cl.inbox ≠ [] then disabled
      else if s.aborted then panic (.executor .alreadyBorrowed)
      else .ok { s with polled := none }

/-- The `Client` is dropped, and with it its two `AbortGuard`s. -/
def dropClient (s : TowerCx A B E) (c : ClientId) (borrowed : Bool) : Except TowerHalt (TowerCx A B E) :=
  if s.live c then
    if borrowed then panic (.executor .alreadyBorrowed)
    else do
      let s ← ({ s with live := Function.update s.live c false } : TowerCx A B E).abort (.send c)
      s.abort (.recv c)
  else disabled

/-! ## The server -/

/-- `run_server`, up to its loop. -/
def runServer (s : TowerCx A B E) (node : NodeId) (port : Id) : Except TowerHalt (TowerCx A B E) :=
  let v := s.serverCount
  match s.net.openSocket (⟨node, port⟩, requestTy) with
  | .error _ =>
    .ok { s with serverCount := v + 1, serverPhase := Function.update s.serverPhase v (.returned
      (.inr .addrInUse)) }
  | .ok (r, net) =>
    .ok { s with
      net := net
      servers := Function.update s.servers v (some ⟨⟨node, port⟩, r⟩)
      serverCount := v + 1
      serverPhase := Function.update s.serverPhase v .receiving }

/-- `run_server` comes to its end, and drops its socket and a request that it has. -/
def serverEnds (s : TowerCx A B E) (v : ServerId) (sv : Server) (phase : ServerPhase A E) :
    Except TowerHalt (TowerCx A B E) := do
  let net ← inNet (s.net.dropSocket sv.inbox ⟨sv.localAddr, requestTy⟩)
  pure { s with net := net, serverPhase := Function.update s.serverPhase v phase }

/-- `socket.receive().await.map_err(Right)?`, when there is a message in the inbox. -/
def pollServer (s : TowerCx A B E) (v : ServerId) : Except TowerHalt (TowerCx A B E) :=
  match s.servers v, s.serverPhase v with
  | some sv, .receiving =>
    match s.net.buffer sv.inbox with
    | [] => disabled
    | msg :: _ => do
      let net ← inNet ((s.net.receive sv.inbox).pollReceive sv.inbox requestTy none)
      let s := { s with net := net }
      match msg with
      | .error kind => s.serverEnds v sv (.returned (.inr kind))
      | .packet rc =>
        match s.net.packets rc with
        | some ⟨header, ⟨_, .request (.start req id)⟩⟩ =>
          pure { s with serverPhase := Function.update s.serverPhase v (.readying ⟨rc, req, id, header.src⟩) }
        | _ => disabled
  | _, _ => disabled

/-- `service.poll_ready` is ready with `r`; then `service.call` gets the request, and a task is spawned for it. -/
def serviceReady (s : TowerCx A B E) (v : ServerId) (r : Except E Unit) : Except TowerHalt (TowerCx A B E) :=
  match s.servers v, s.serverPhase v with
  | some sv, .readying request =>
    match r with
    | .error e => s.serverEnds v sv (.returned (.inl e))
    | .ok () => do
      -- the service may have stopped the node
      let s ← s.spawn sv.localAddr.node
      pure { s with
        serverPhase := Function.update s.serverPhase v .receiving
        jobs := Function.update s.jobs s.jobCount (some ⟨sv.localAddr, request⟩)
        jobCount := s.jobCount + 1
        jobPhase := Function.update s.jobPhase s.jobCount .computing }
  | _, _ => disabled

/-- The future of `run_server` is dropped, and with it its socket. -/
def dropServer (s : TowerCx A B E) (v : ServerId) (borrowed : Bool) : Except TowerHalt (TowerCx A B E) :=
  match s.servers v, s.serverPhase v with
  | some sv, .receiving | some sv, .readying _ =>
    if borrowed then panic (.executor .alreadyBorrowed) else s.serverEnds v sv .dropped
  | _, _ => disabled

/-- `fut.await` is ready with `result`; then `net.send` gets the response. -/
def complete (s : TowerCx A B E) (j : JobId) (result : Except E B) (outcome : SendOutcome) :
    Except TowerHalt (TowerCx A B E) :=
  match s.jobs j, s.jobPhase j with
  | some job, .computing =>
    let (rc, net) := s.net.newPacket job.localAddr job.request.address
      ⟨responseTy, .response (.complete result job.request.id)⟩ .ofPacket
    let phase : JobPhase := match outcome with
      | .pending => .sending
      | .ready _ => .done
    .ok ({ s with net := net, jobPhase := Function.update s.jobPhase j phase }.note [.replied j result rc])
  | _, _ => disabled

/-- The future of `net.send` is ready, with whatever. -/
def pollJob (s : TowerCx A B E) (j : JobId) : Except TowerHalt (TowerCx A B E) :=
  match s.jobs j, s.jobPhase j with
  | some _, .sending => .ok { s with jobPhase := Function.update s.jobPhase j .done }
  | _, _ => disabled

def dropJob (s : TowerCx A B E) (j : JobId) : Except TowerHalt (TowerCx A B E) :=
  match s.jobs j with
  | none => disabled
  | some _ => .ok { s with jobPhase := Function.update s.jobPhase j .done }

/-! ## The net -/

def netEvent (n : Net (TowerPacket A B E)) : NetEvent → Except TowerHalt (Net (TowerPacket A B E))
  | .enqueuePacket id t rc =>
    match n.packets rc with
    | none => disabled
    | some w => if 0 < n.held rc ∧ n.inFlight id = none then .ok (n.enqueuePacket id t rc w) else disabled
  | .dropPacket rc => if 0 < n.held rc then .ok (n.dropPacket rc) else disabled
  | .enqueueError id t dst ty kind =>
    if n.inFlight id = none then .ok (n.enqueueError id t dst ty kind) else disabled
  | .deliver id now =>
    match n.inFlight id with
    | none => disabled
    | some d => .ok (n.deliver id now d)
  | .abortDelivery id =>
    match n.inFlight id with
    | none => disabled
    | some d => .ok (n.abortDelivery id d)
  | .drain key =>
    match n.inboxes key with
    | none => disabled
    | some r => .ok (n.drain r)

def step (s : TowerCx A B E) : TowerLabel A B E → Except TowerHalt (TowerCx A B E)
  | .newClient node remote => s.newClient node remote
  | .pollReady c => s.pollReady c
  | .call c req => s.call c req
  | .pollCall k => s.pollCall k
  | .dropCall k => s.dropCall k
  | .dropClient c borrowed => s.dropClient c borrowed
  | .pollTask t => s.pollTask t
  | .pollSend c outcome => s.pollSend c outcome
  | .pollRecv c => s.pollRecv c
  | .endPoll => s.endPoll
  | .abort t => s.abort t
  | .runServer node port => s.runServer node port
  | .pollServer v => s.pollServer v
  | .serviceReady v r => s.serviceReady v r
  | .dropServer v borrowed => s.dropServer v borrowed
  | .complete j result outcome => s.complete j result outcome
  | .pollJob j => s.pollJob j
  | .dropJob j => s.dropJob j
  | .net e => do
    let net ← netEvent s.net e
    pure { s with net := net }
  | .stopNode node => .ok { s with stopped := Function.update s.stopped node true }
  | .startNode node => .ok { s with stopped := Function.update s.stopped node false }
  | .newId => do
    let (_, s) ← s.newId
    pure s

/-- The states of any number of clients and servers. -/
def Reachable (s : TowerCx A B E) : Prop := Machine.Steps step install s

end TowerCx

end Refault
