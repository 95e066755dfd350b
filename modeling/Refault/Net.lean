import Mathlib.Logic.Function.Basic
import Mathlib.Tactic.Simps.Basic
import Mathlib.Tactic.Common
import Refault.Basic

/-!
# Refault.Net — packets, inboxes and sockets

`Net` is the struct of that name with what its `Rc`s point to: the packets, with their reference counts, and
the inboxes, each a `LocalChannel` of capacity 8.  A socket is known by its inbox, which no other socket has.
`held` counts the `PacketRc`s in the hands of user code (a send function above all), `receivers` the futures
of `Socket::receive`, and `inFlight` are the futures that `Inboxes::enqueue` spawns, by the ids of their
tasks.  When these run is not in this module.
-/

namespace Refault

/-- The `ConstTypeId` of a packet type. -/
abbrev TypeId := ℕ

/-- A pointer to a `WrappedPacketImpl`. -/
abbrev PacketRc := ℕ

/-- A pointer to an `Inbox`. -/
abbrev InboxRc := ℕ

structure Addr where
  node : NodeId
  port : Id
deriving DecidableEq

structure OrderingKey where
  ty : Option TypeId
  dstAddr : Option Addr
deriving DecidableEq

structure ServiceLevel where
  ordering : Option OrderingKey
  allowDrop : Bool
  allowMultiple : Bool
deriving DecidableEq

/-- The default of `Packet::service_level`. -/
def ServiceLevel.ofPacket : ServiceLevel where
  ordering := none
  allowDrop := true
  allowMultiple := false

/-- `std::io::Error`, by its kind. -/
inductive ErrorKind
  | connectionReset
  | addrInUse
  | other (n : ℕ)
deriving DecidableEq

/-- A value of a type that implements `Packet`, with that type. -/
structure Packet (P : Type) where
  ty : TypeId
  value : P
deriving DecidableEq

/-- `Packet::packet_type_id`, which "should not be overridden". -/
def Packet.packetTypeId {P : Type} (packet : Packet P) : TypeId := packet.ty

structure PacketHeader where
  src : Addr
  dst : Addr
  ty : TypeId
  serviceLevel : ServiceLevel
deriving DecidableEq

/-- `WrappedPacketImpl`. -/
structure WrappedPacket (P : Type) where
  header : PacketHeader
  packet : Packet P
deriving DecidableEq

/-- `PacketRc::new`, less the allocation. -/
def WrappedPacket.new {P : Type} (src dst : Addr) (packet : Packet P) (serviceLevel : ServiceLevel) :
    WrappedPacket P where
  header := ⟨src, dst, packet.packetTypeId, serviceLevel⟩
  packet := packet

/-- A key of `Inboxes`. -/
abbrev Key := Addr × TypeId

/-- `Result<PacketRc, Error>`. -/
inductive Msg
  | packet (rc : PacketRc)
  | error (kind : ErrorKind)
deriving DecidableEq

structure Socket where
  localAddr : Addr
  ty : TypeId
deriving DecidableEq

def Socket.key (sock : Socket) : Key := (sock.localAddr, sock.ty)

structure AddrInUseError where
  addr : Addr
  ty : TypeId
deriving DecidableEq

/-- The future of `Inboxes::enqueue`. -/
structure Delivery where
  at_ : Instant
  key : Key
  msg : Msg
deriving DecidableEq

inductive NetPanic
  /-- `downcast::<WrappedPacketImpl<T>>().unwrap()` -/
  | downcast
  /-- `clone_packet`: `unimplemented!()` -/
  | clonePacket
  /-- `Socket::drop`: `debug_assert!(removed.is_some_and(..))` -/
  | socketDrop
  /-- `send_wrapped`: `assert!(packet.header().src.node == NodeId::current())` -/
  | sendNode
  /-- `Instant + Duration` overflows -/
  | instantOverflow
deriving DecidableEq

/-- What becomes of a packet that is handed to `enqueue_packet` and not received. -/
inductive LostCause
  | noSocket
  | bufferFull
  | inboxFreed
  | nodeRestarted
  | deliveryAborted
deriving DecidableEq

/-- What is observed of packets; `into` is the inbox a delivery puts its message into. -/
inductive NetObs (P : Type)
  | sent (rc : PacketRc) (now : Instant)
  | enqueued (rc : PacketRc) (id : Id)
  | attempt (id : Id) (now : Instant) (msg : Msg) (into : Option InboxRc)
  | received (r : InboxRc) (rc : PacketRc) (value : P) (src : Addr) (cloned : Bool)
  | receivedError (r : InboxRc) (kind : ErrorKind)
  | lost (rc : PacketRc) (cause : LostCause)
  | unsent (rc : PacketRc)

structure Net (P : Type) where
  inboxes : Key → Option InboxRc
  sockets : InboxRc → Option Socket
  receivers : InboxRc → ℕ
  /-- what is in the `LocalChannel` of `futures_intrusive`: it holds eight messages and refuses a ninth, and
  gives them out in the order in which they came in -/
  buffer : InboxRc → List Msg
  created : InboxRc → Option Key
  inboxCount : ℕ
  packets : PacketRc → Option (WrappedPacket P)
  strong : PacketRc → ℕ
  held : PacketRc → ℕ
  packetCount : ℕ
  inFlight : Id → Option Delivery
  dropped : Bool
  log : List (NetObs P)

namespace Net

variable {P : Type}

/-- `Net::new`. -/
def new : Net P where
  inboxes _ := none
  sockets _ := none
  receivers _ := 0
  buffer _ := []
  created _ := none
  inboxCount := 0
  packets _ := none
  strong _ := 0
  held _ := 0
  packetCount := 0
  inFlight _ := none
  dropped := false
  log := []

/-- The capacity of an `Inbox`. -/
def capacity : ℕ := 8

@[simps] def note (n : Net P) (o : NetObs P) : Net P := { n with log := n.log ++ [o] }

@[simps] def setBuffer (n : Net P) (r : InboxRc) (msgs : List Msg) : Net P :=
  { n with buffer := Function.update n.buffer r msgs }

/-- Drop a `PacketRc`. -/
@[simps] def release (n : Net P) (rc : PacketRc) : Net P :=
  { n with strong := Function.update n.strong rc (n.strong rc - 1) }

/-- Drop a message that was handed to `enqueue`. -/
def lose (n : Net P) (cause : LostCause) : Msg → Net P
  | .packet rc => (n.release rc).note (.lost rc cause)
  | .error _ => n

/-! ## Packets in the hands of user code -/

/-- `PacketRc::new`; `service_level` is user code. -/
def newPacket (n : Net P) (src dst : Addr) (packet : Packet P) (serviceLevel : ServiceLevel) : PacketRc × Net P :=
  let rc := n.packetCount
  (rc, { n with
    packets := Function.update n.packets rc (some (.new src dst packet serviceLevel))
    strong := Function.update n.strong rc 1
    held := Function.update n.held rc 1
    packetCount := rc + 1 })

/-- `PacketRc::clone`. -/
def clonePacket (n : Net P) (rc : PacketRc) : Net P :=
  { n with
    strong := Function.update n.strong rc (n.strong rc + 1)
    held := Function.update n.held rc (n.held rc + 1) }

/-- User code lets go of a `PacketRc`. -/
@[simps] def letGo (n : Net P) (rc : PacketRc) : Net P :=
  { n with held := Function.update n.held rc (n.held rc - 1) }

def dropPacket (n : Net P) (rc : PacketRc) : Net P := ((n.letGo rc).release rc).note (.unsent rc)

/-! ## Deliveries -/

/-- `Inboxes::enqueue`, the task it spawns being `id`. -/
@[simps] def enqueue (n : Net P) (id : Id) (at_ : Instant) (key : Key) (msg : Msg) : Net P :=
  { n with inFlight := Function.update n.inFlight id (some ⟨at_, key, msg⟩) }

/-- `Inboxes::enqueue_packet`. -/
def enqueuePacket (n : Net P) (id : Id) (at_ : Instant) (rc : PacketRc) (packet : WrappedPacket P) : Net P :=
  ((n.letGo rc).enqueue id at_ (packet.header.dst, packet.header.ty) (.packet rc)).note (.enqueued rc id)

/-- `Inboxes::enqueue_error`. -/
def enqueueError (n : Net P) (id : Id) (at_ : Instant) (dst : Addr) (ty : TypeId) (kind : ErrorKind) : Net P :=
  n.enqueue id at_ (dst, ty) (.error kind)

@[simps] def land (n : Net P) (id : Id) : Net P := { n with inFlight := Function.update n.inFlight id none }

/-- The inbox that takes a message for `key`, if there is one with room. -/
def accepts (n : Net P) (key : Key) : Option InboxRc :=
  (n.inboxes key).filter fun r => (n.buffer r).length < capacity

/-- The closure at the end of `enqueue`'s future: `inbox.try_send(msg).ok()`, if there is an inbox. -/
def deliver (n : Net P) (id : Id) (now : Instant) (d : Delivery) : Net P :=
  let n' := (n.land id).note (.attempt id now d.msg (n.accepts d.key))
  match n.inboxes d.key with
  | none => n'.lose .noSocket d.msg
  | some r =>
    if (n.buffer r).length < capacity then n'.setBuffer r (n.buffer r ++ [d.msg])
    else n'.lose .bufferFull d.msg

/-- `enqueue`'s future is dropped. -/
def abortDelivery (n : Net P) (id : Id) (d : Delivery) : Net P := (n.land id).lose .deliveryAborted d.msg

/-! ## Sockets -/

/-- `Socket::open`, on the key made of the current node, the port and the type. -/
def openSocket (n : Net P) (key : Key) : Except AddrInUseError (InboxRc × Net P) :=
  match n.inboxes key with
  | some _ => .error ⟨key.1, key.2⟩
  | none =>
    let r := n.inboxCount
    .ok (r, { n with
      inboxes := Function.update n.inboxes key (some r)
      sockets := Function.update n.sockets r (some ⟨key.1, key.2⟩)
      receivers := Function.update n.receivers r 0
      buffer := Function.update n.buffer r []
      created := Function.update n.created r (some key)
      inboxCount := r + 1 })

/-- There is an `Rc` to the inbox: in a socket, in a future of `receive`, or in `Inboxes`. -/
def pointed (n : Net P) (r : InboxRc) : Bool :=
  (n.sockets r).isSome || decide (0 < n.receivers r) || (n.created r).any fun key => n.inboxes key = some r

/-- Free the inbox when the last `Rc` to it is gone. -/
def collect (n : Net P) (r : InboxRc) : Net P :=
  if n.pointed r then n else (n.buffer r).foldl (fun n msg => n.lose .inboxFreed msg) (n.setBuffer r [])

/-- `Socket::drop`, with its debug assertion. -/
def dropSocket (n : Net P) (r : InboxRc) (sock : Socket) : Except NetPanic (Net P) :=
  if n.inboxes sock.key = some r then
    .ok (({ n with
      inboxes := Function.update n.inboxes sock.key none
      sockets := Function.update n.sockets r none } : Net P).collect r)
  else .error .socketDrop

/-- `Socket::receive`. -/
@[simps] def receive (n : Net P) (r : InboxRc) : Net P :=
  { n with receivers := Function.update n.receivers r (n.receivers r + 1) }

/-- A future of `Socket::receive` is gone. -/
def dropReceive (n : Net P) (r : InboxRc) : Net P :=
  ({ n with receivers := Function.update n.receivers r (n.receivers r - 1) } : Net P).collect r

/-- The packet is taken out of its `Rc` or, if there are others, cloned; `clone` is what its `clone_packet`
answers. -/
def unwrapPacket (n : Net P) (rc : PacketRc) (value : P) (clone : Option P) : Except NetPanic (P × Bool) :=
  if n.strong rc = 1 then .ok (value, false)
  else
    match clone with
    | none => .error .clonePacket
    | some value => .ok (value, true)

/-- The future of `receive` on a `Socket<T>`, `T` being `ty`, with the message it takes from the channel. -/
def receiveMsg (n : Net P) (r : InboxRc) (ty : TypeId) (clone : Option P) : Msg → Except NetPanic (Net P)
  | .error kind => .ok (n.note (.receivedError r kind))
  | .packet rc =>
    match n.packets rc with
    | none => .error .downcast
    | some wrapped =>
      if wrapped.packet.ty = ty then do
        let (value, cloned) ← n.unwrapPacket rc wrapped.packet.value clone
        .ok ((n.release rc).note (.received r rc value wrapped.header.src cloned))
      else .error .downcast

/-- A poll of the future of `receive`; nothing changes if the channel is empty. -/
def pollReceive (n : Net P) (r : InboxRc) (ty : TypeId) (clone : Option P) : Except NetPanic (Net P) :=
  match n.buffer r with
  | [] => .ok n
  | msg :: msgs => do
    let n ← (n.setBuffer r msgs).receiveMsg r ty clone msg
    .ok (n.dropReceive r)

/-! ## `Net` as a simulator -/

/-- One turn of the loop of `start_node` over an inbox: `inbox.try_receive()`. -/
def drain (n : Net P) (r : InboxRc) : Net P :=
  match n.buffer r with
  | [] => n
  | msg :: msgs => (n.setBuffer r msgs).lose .nodeRestarted msg

/-- `Net` is dropped, with its `Rc`s. -/
@[simps] def dropNet (n : Net P) : Net P := { n with inboxes := fun _ => none, dropped := true }

end Net

end Refault
