import Mathlib.Logic.Relation
import Refault.Lib.Custody
import Refault.Lib.Machine
import Refault.Net

/-!
# Refault.NetInv — what the operations of `Net` keep

`Act` lists what can happen to a `Net`.  Three invariants are kept by every act: the keys of `Inboxes` are
those of the live sockets (`Registry`), every message in an inbox is of the inbox's address and type (`Typed`)
and a packet whose `PacketRc` is not cloned is in one place (`Kept`).
-/

namespace Refault

/-- Where a packet can be. -/
inductive Place
  | held
  | inFlight (id : Id)
  | buffered (r : InboxRc)
  | received
  | lost (cause : LostCause)
  | unsent
deriving DecidableEq

namespace Place

/-- There is a `PacketRc` to it there. -/
def pointed : Place → Bool
  | .held | .inFlight _ | .buffered _ => true
  | _ => false

/-- It has been handed to `enqueue_packet`. -/
def enqueued : Place → Bool
  | .held | .unsent => false
  | _ => true

end Place

namespace NetObs

variable {P : Type}

def isReceived (rc : PacketRc) : NetObs P → Bool
  | .received _ i _ _ _ => i = rc
  | _ => false

def isLost (rc : PacketRc) (cause : LostCause) : NetObs P → Bool
  | .lost i c => i = rc ∧ c = cause
  | _ => false

def isUnsent (rc : PacketRc) : NetObs P → Bool
  | .unsent i => i = rc
  | _ => false

def isEnqueued (rc : PacketRc) : NetObs P → Bool
  | .enqueued i _ => i = rc
  | _ => false

end NetObs

namespace Net

variable {P : Type}

/-- What can happen to a `Net`; the cloning of a `PacketRc` is kept apart. -/
inductive Act (n : Net P) : Net P → Prop
  | newPacket (src dst : Addr) (packet : Packet P) (level : ServiceLevel) :
      Act n (n.newPacket src dst packet level).2
  | sent (rc : PacketRc) (now : Instant) : Act n (n.note (.sent rc now))
  | dropPacket (rc : PacketRc) (h : 0 < n.held rc) : Act n (n.dropPacket rc)
  | enqueuePacket (id : Id) (t : Instant) (rc : PacketRc) (w : WrappedPacket P) (h : 0 < n.held rc)
      (hp : n.packets rc = some w) (hid : n.inFlight id = none) : Act n (n.enqueuePacket id t rc w)
  | enqueueError (id : Id) (t : Instant) (dst : Addr) (ty : TypeId) (kind : ErrorKind)
      (hid : n.inFlight id = none) : Act n (n.enqueueError id t dst ty kind)
  | deliver (id : Id) (now : Instant) (d : Delivery) (h : n.inFlight id = some d) : Act n (n.deliver id now d)
  | abortDelivery (id : Id) (d : Delivery) (h : n.inFlight id = some d) : Act n (n.abortDelivery id d)
  | openSocket (key : Key) (r : InboxRc) (n' : Net P) (hd : n.dropped = false)
      (h : n.openSocket key = .ok (r, n')) : Act n n'
  | dropSocket (r : InboxRc) (sock : Socket) (n' : Net P) (hs : n.sockets r = some sock)
      (h : n.dropSocket r sock = .ok n') : Act n n'
  | receive (r : InboxRc) (h : n.sockets r ≠ none) : Act n (n.receive r)
  | dropReceive (r : InboxRc) (h : 0 < n.receivers r) : Act n (n.dropReceive r)
  | pollReceive (r : InboxRc) (key : Key) (clone : Option P) (n' : Net P) (h : 0 < n.receivers r)
      (hk : n.created r = some key) (hp : n.pollReceive r key.2 clone = .ok n') : Act n n'
  | drain (r : InboxRc) (key : Key) (h : n.inboxes key = some r) : Act n (n.drain r)
  | dropNet : Act n n.dropNet

/-! ## Losing messages -/

section Lose

variable (n : Net P) (cause : LostCause) (msg : Msg) (r : InboxRc)

@[simp] theorem lose_inboxes : (n.lose cause msg).inboxes = n.inboxes := by cases msg <;> rfl
@[simp] theorem lose_sockets : (n.lose cause msg).sockets = n.sockets := by cases msg <;> rfl
@[simp] theorem lose_receivers : (n.lose cause msg).receivers = n.receivers := by cases msg <;> rfl
@[simp] theorem lose_buffer : (n.lose cause msg).buffer = n.buffer := by cases msg <;> rfl
@[simp] theorem lose_created : (n.lose cause msg).created = n.created := by cases msg <;> rfl
@[simp] theorem lose_inboxCount : (n.lose cause msg).inboxCount = n.inboxCount := by cases msg <;> rfl
@[simp] theorem lose_packets : (n.lose cause msg).packets = n.packets := by cases msg <;> rfl
@[simp] theorem lose_held : (n.lose cause msg).held = n.held := by cases msg <;> rfl
@[simp] theorem lose_packetCount : (n.lose cause msg).packetCount = n.packetCount := by cases msg <;> rfl
@[simp] theorem lose_inFlight : (n.lose cause msg).inFlight = n.inFlight := by cases msg <;> rfl
@[simp] theorem lose_dropped : (n.lose cause msg).dropped = n.dropped := by cases msg <;> rfl

theorem lose_strong (rc : PacketRc) :
    (n.lose cause msg).strong rc = n.strong rc - if msg = .packet rc then 1 else 0 := by
  cases msg with
  | error kind => simp [lose]
  | packet i =>
    by_cases h : rc = i
    · subst h; simp [lose]
    · simp [lose, h, Ne.symm h]

/-- The inbox is emptied. -/
def spill (n : Net P) (r : InboxRc) : Net P :=
  (n.buffer r).foldl (fun n msg => n.lose .inboxFreed msg) (n.setBuffer r [])

theorem collect_eq : n.collect r = if n.pointed r then n else n.spill r := rfl

/-- A field that no loss changes. -/
theorem foldl_lose {A : Type} (f : Net P → A) (hf : ∀ (n : Net P) msg, f (n.lose cause msg) = f n)
    (msgs : List Msg) : f (msgs.foldl (fun n msg => n.lose cause msg) n) = f n := by
  induction msgs generalizing n with
  | nil => rfl
  | cons msg msgs ih => exact (ih _).trans (hf n msg)

theorem collect_frame {A : Type} (f : Net P → A) (hf : ∀ (n : Net P) msg, f (n.lose .inboxFreed msg) = f n)
    (hb : f (n.setBuffer r []) = f n) : f (n.collect r) = f n := by
  rw [collect_eq]
  split
  · rfl
  · exact (foldl_lose _ _ f hf _).trans hb

@[simp] theorem collect_inboxes : (n.collect r).inboxes = n.inboxes := collect_frame n r (·.inboxes) (by simp) rfl
@[simp] theorem collect_sockets : (n.collect r).sockets = n.sockets := collect_frame n r (·.sockets) (by simp) rfl
@[simp] theorem collect_receivers : (n.collect r).receivers = n.receivers :=
  collect_frame n r (·.receivers) (by simp) rfl
@[simp] theorem collect_created : (n.collect r).created = n.created := collect_frame n r (·.created) (by simp) rfl
@[simp] theorem collect_inboxCount : (n.collect r).inboxCount = n.inboxCount :=
  collect_frame n r (·.inboxCount) (by simp) rfl
@[simp] theorem collect_packets : (n.collect r).packets = n.packets := collect_frame n r (·.packets) (by simp) rfl
@[simp] theorem collect_held : (n.collect r).held = n.held := collect_frame n r (·.held) (by simp) rfl
@[simp] theorem collect_packetCount : (n.collect r).packetCount = n.packetCount :=
  collect_frame n r (·.packetCount) (by simp) rfl
@[simp] theorem collect_inFlight : (n.collect r).inFlight = n.inFlight :=
  collect_frame n r (·.inFlight) (by simp) rfl
@[simp] theorem collect_dropped : (n.collect r).dropped = n.dropped := collect_frame n r (·.dropped) (by simp) rfl

theorem collect_buffer (r' : InboxRc) : (n.collect r).buffer r' =
    if r' = r ∧ n.pointed r = false then [] else n.buffer r' := by
  rw [collect_eq]
  cases h : n.pointed r with
  | true => simp
  | false =>
    rw [if_neg (by simp)]
    refine (foldl_lose _ _ (fun n => n.buffer r') (by simp) _).trans ?_
    by_cases hr : r' = r <;> simp [hr]

end Lose

/-! ## Copies of packets -/

/-- How many copies of a packet there are at every place. -/
def row (n : Net P) (rc : PacketRc) : Place → ℕ
  | .held => n.held rc
  | .inFlight id => if (n.inFlight id).map (·.msg) = some (.packet rc) then 1 else 0
  | .buffered r => (n.buffer r).count (.packet rc)
  | .received => n.log.countP (NetObs.isReceived rc)
  | .lost cause => n.log.countP (NetObs.isLost rc cause)
  | .unsent => n.log.countP (NetObs.isUnsent rc)

/-- How often it has been handed to `enqueue_packet`. -/
def timesEnqueued (n : Net P) (rc : PacketRc) : ℕ := n.log.countP (NetObs.isEnqueued rc)

section Row

variable (n : Net P) (rc : PacketRc) (pl : Place)

theorem row_lose (cause : LostCause) (msg : Msg) : (n.lose cause msg).row rc pl =
    n.row rc pl + if msg = .packet rc ∧ pl = .lost cause then 1 else 0 := by
  cases msg with
  | error kind => cases pl <;> simp [lose, row]
  | packet i =>
    cases pl with
    | lost c =>
      have hc : (cause = c) = (c = cause) := propext eq_comm
      simp [lose, row, List.countP_append, List.countP_cons, NetObs.isLost, hc]
    | _ => simp [lose, row, List.countP_append, NetObs.isReceived, NetObs.isUnsent]

theorem timesEnqueued_lose (cause : LostCause) (msg : Msg) :
    (n.lose cause msg).timesEnqueued rc = n.timesEnqueued rc := by
  cases msg <;> simp [lose, timesEnqueued, List.countP_append, NetObs.isEnqueued]

theorem row_setBuffer (r : InboxRc) (msgs : List Msg) : (n.setBuffer r msgs).row rc pl =
    if pl = .buffered r then msgs.count (.packet rc) else n.row rc pl := by
  cases pl with
  | buffered r' => by_cases h : r' = r <;> simp [row, h]
  | _ => simp [row]

theorem row_land (id : Id) : (n.land id).row rc pl = if pl = .inFlight id then 0 else n.row rc pl := by
  cases pl with
  | inFlight id' => by_cases h : id' = id <;> simp [row, h]
  | _ => simp [row]

theorem row_spill (r : InboxRc) : (n.spill r).row rc pl =
    if pl = .buffered r then 0
    else n.row rc pl + if pl = .lost .inboxFreed then (n.buffer r).count (.packet rc) else 0 := by
  have key : ∀ (msgs : List Msg) (n : Net P), (msgs.foldl (fun n msg => n.lose .inboxFreed msg) n).row rc pl =
      n.row rc pl + if pl = .lost .inboxFreed then msgs.count (.packet rc) else 0 := by
    intro msgs
    induction msgs with
    | nil => intro n; simp
    | cons msg msgs ih =>
      intro n
      rw [List.foldl_cons, ih, row_lose, List.count_cons]
      by_cases h : msg = .packet rc <;> by_cases hp : pl = .lost .inboxFreed <;>
        simp [h, hp, Nat.add_assoc, Nat.add_comm, Nat.add_left_comm]
  rw [spill, key, row_setBuffer]
  by_cases h : pl = .buffered r
  · subst h; simp
  · simp [h]

theorem strong_spill (r : InboxRc) : (n.spill r).strong rc = n.strong rc - (n.buffer r).count (.packet rc) := by
  have key : ∀ (msgs : List Msg) (n : Net P), (msgs.foldl (fun n msg => n.lose .inboxFreed msg) n).strong rc =
      n.strong rc - msgs.count (.packet rc) := by
    intro msgs
    induction msgs with
    | nil => intro n; simp
    | cons msg msgs ih =>
      intro n
      rw [List.foldl_cons, ih, lose_strong, List.count_cons]
      by_cases h : msg = .packet rc <;> simp [h, Nat.sub_sub, Nat.add_comm]
  exact key _ _

theorem timesEnqueued_spill (r : InboxRc) : (n.spill r).timesEnqueued rc = n.timesEnqueued rc :=
  foldl_lose _ _ (fun n => n.timesEnqueued rc) (fun n msg => timesEnqueued_lose n rc _ msg) _

end Row

/-! ## Every packet is in one place -/

/-- The packet is at `pl`, and nowhere else. -/
structure KeptAt (n : Net P) (rc : PacketRc) (pl : Place) : Prop where
  row : Custody.At (n.row rc) pl
  strong : n.strong rc = if pl.pointed then 1 else 0
  enqueued : n.timesEnqueued rc = if pl.enqueued then 1 else 0

/-- From when it is made on, the packet is at one place. -/
structure Kept (n : Net P) (rc : PacketRc) : Prop where
  none : n.packetCount ≤ rc → (∀ pl, n.row rc pl = 0) ∧ n.timesEnqueued rc = 0
  one : rc < n.packetCount → ∃ pl, n.KeptAt rc pl

/-- What an act does with one packet. -/
inductive Moved (n n' : Net P) (rc : PacketRc) : Prop
  | same (hrow : ∀ pl, n'.row rc pl = n.row rc pl) (hs : n'.strong rc = n.strong rc)
      (he : n'.timesEnqueued rc = n.timesEnqueued rc)
  | moved (p q : Place) (hp : 0 < n.row rc p) (hpt : p.pointed = true)
      (hm : Custody.Moves (n.row rc) (n'.row rc) p q)
      (hs : n'.strong rc = if q.pointed then n.strong rc else n.strong rc - 1)
      (he : n'.timesEnqueued rc = if p.enqueued = q.enqueued then n.timesEnqueued rc else n.timesEnqueued rc + 1)
      (hq : p.enqueued = true → q.enqueued = true)

theorem KeptAt.moved {n n' : Net P} {rc : PacketRc} {pl : Place} (hK : n.KeptAt rc pl) (h : Moved n n' rc) :
    ∃ pl', n'.KeptAt rc pl' := by
  cases h with
  | same hrow hs he => exact ⟨pl, hK.row.congr hrow, hs.trans hK.strong, he.trans hK.enqueued⟩
  | moved p q hp hpt hm hs he hq =>
    obtain rfl : p = pl := hK.row.eq_of_pos hp
    refine ⟨q, hK.row.moves hm hp, ?_, ?_⟩
    · rw [hs, hK.strong, hpt]
      rfl
    · rw [he, hK.enqueued]
      cases hpe : p.enqueued <;> cases hqe : q.enqueued <;> simp
      exact absurd (hq hpe) (by rw [hqe]; exact Bool.false_ne_true)

theorem Kept.moved {n n' : Net P} {rc : PacketRc} (hK : n.Kept rc) (hc : n'.packetCount = n.packetCount)
    (h : Moved n n' rc) : n'.Kept rc where
  none hrc := by
    obtain ⟨hz, he⟩ := hK.none (hc ▸ hrc)
    cases h with
    | same hrow hs he' => exact ⟨fun pl => (hrow pl).trans (hz pl), he'.trans he⟩
    | moved p q hp => rw [hz p] at hp; exact absurd hp (lt_irrefl 0)
  one hrc := by
    obtain ⟨pl, hpl⟩ := hK.one (hc ▸ hrc)
    exact hpl.moved h

theorem Kept.le_one {n : Net P} {rc : PacketRc} (hK : n.Kept rc) (pl : Place) : n.row rc pl ≤ 1 := by
  by_cases hrc : rc < n.packetCount
  · obtain ⟨p, hp⟩ := hK.one hrc
    exact hp.row.le_one pl
  · rw [(hK.none (Nat.le_of_not_lt hrc)).1 pl]
    exact Nat.zero_le 1

section Moved

variable {n : Net P}

/-- A message of `enqueue` that is lost, after it has been taken from `p`. -/
theorem moved_lose {m : Net P} {p : Place} {cause : LostCause} {msg : Msg} {rc : PacketRc} (hpt : p.pointed = true)
    (hpe : p.enqueued = true) (hrow : ∀ pl, n.row rc pl = m.row rc pl + if msg = .packet rc ∧ pl = p then 1 else 0)
    (hs : m.strong rc = n.strong rc) (he : m.timesEnqueued rc = n.timesEnqueued rc) :
    Moved n (m.lose cause msg) rc := by
  by_cases hmsg : msg = .packet rc
  · refine .moved p (.lost cause) ?_ hpt (fun x => ?_) ?_ ?_ fun _ => rfl
    · rw [hrow p]; simp [hmsg]
    · rw [row_lose, hrow x]; simp only [hmsg, true_and]; omega
    · rw [lose_strong, hs]; simp [hmsg, Place.pointed]
    · rw [timesEnqueued_lose, he]; exact (if_pos hpe).symm
  · refine .same (fun pl => ?_) ?_ ?_
    · rw [row_lose, hrow pl]; simp [hmsg]
    · rw [lose_strong, hs]; simp [hmsg]
    · rw [timesEnqueued_lose, he]

theorem row_inFlight {id : Id} {d : Delivery} (h : n.inFlight id = some d) (rc : PacketRc) (pl : Place) :
    n.row rc pl = (n.land id).row rc pl + if d.msg = .packet rc ∧ pl = .inFlight id then 1 else 0 := by
  rw [row_land]
  by_cases hpl : pl = .inFlight id
  · subst hpl; simp [row, h]
  · simp [hpl]

theorem row_buffered {r : InboxRc} {msg : Msg} {msgs : List Msg} (h : n.buffer r = msg :: msgs)
    (rc : PacketRc) (pl : Place) :
    n.row rc pl = (n.setBuffer r msgs).row rc pl + if msg = .packet rc ∧ pl = .buffered r then 1 else 0 := by
  rw [row_setBuffer]
  by_cases hpl : pl = .buffered r
  · subst hpl; simp [row, h, List.count_cons]
  · simp [hpl]

theorem row_note_attempt (id : Id) (now : Instant) (msg : Msg) (into : Option InboxRc) (rc : PacketRc)
    (pl : Place) : (n.note (.attempt id now msg into)).row rc pl = n.row rc pl := by
  cases pl <;> simp [row, List.countP_append, NetObs.isReceived, NetObs.isLost, NetObs.isUnsent]

theorem moved_deliver {id : Id} {now : Instant} {d : Delivery} (h : n.inFlight id = some d) (rc : PacketRc) :
    Moved n (n.deliver id now d) rc := by
  have hrow : ∀ pl, n.row rc pl = ((n.land id).note (.attempt id now d.msg (n.accepts d.key))).row rc pl +
      if d.msg = .packet rc ∧ pl = .inFlight id then 1 else 0 := fun pl => by
    rw [row_note_attempt]; exact row_inFlight h rc pl
  have he : ((n.land id).note (.attempt id now d.msg (n.accepts d.key))).timesEnqueued rc =
      n.timesEnqueued rc := by
    simp [timesEnqueued, List.countP_append, NetObs.isEnqueued]
  unfold deliver
  dsimp only
  split
  · exact moved_lose rfl rfl hrow rfl he
  · rename_i r hr
    split_ifs with hlen
    · by_cases hmsg : d.msg = .packet rc
      · refine .moved (.inFlight id) (.buffered r) ?_ rfl (fun x => ?_) rfl he fun _ => rfl
        · rw [hrow]; simp [hmsg]
        · rw [row_setBuffer, hrow x]
          by_cases hx : x = .buffered r
          · subst hx; simp [hmsg, row]
          · simp [hx, hmsg]
      · refine .same (fun pl => ?_) rfl he
        rw [row_setBuffer, hrow pl]
        by_cases hx : pl = .buffered r
        · subst hx; simp [hmsg, row]
        · simp [hx, hmsg]
    · exact moved_lose rfl rfl hrow rfl he

theorem moved_collect {rc : PacketRc} (hle : ∀ pl, n.row rc pl ≤ 1) (r : InboxRc) : Moved n (n.collect r) rc := by
  rw [collect_eq]
  split
  · exact .same (fun _ => rfl) rfl rfl
  · have hle := hle (.buffered r)
    have hc : n.row rc (.buffered r) = (n.buffer r).count (.packet rc) := rfl
    rw [hc] at hle
    rcases Nat.le_one_iff_eq_zero_or_eq_one.mp hle with h0 | h1
    · refine .same (fun pl => ?_) (by rw [strong_spill, h0]; rfl) (timesEnqueued_spill ..)
      rw [row_spill, h0]
      by_cases hpl : pl = .buffered r
      · subst hpl; simp [hc, h0]
      · simp [hpl]
    · refine .moved (.buffered r) (.lost .inboxFreed) (by rw [hc, h1]; exact Nat.one_pos) rfl (fun x => ?_)
        (by rw [strong_spill, h1]; rfl) (timesEnqueued_spill ..) fun _ => rfl
      rw [row_spill, h1]
      by_cases hx : x = .buffered r
      · subst hx; simp [hc, h1]
      · simp [hx]

end Moved

/-! ## The registry -/

/-- The keys of `Inboxes` are those of the live sockets, and an inbox that nothing points to is empty. -/
structure Registry (n : Net P) : Prop where
  registered : n.dropped = false → ∀ key r, n.inboxes key = some r ↔
    ∃ sock, n.sockets r = some sock ∧ sock.key = key
  gone : n.dropped = true → ∀ key, n.inboxes key = none
  created : ∀ r sock, n.sockets r = some sock → n.created r = some sock.key
  fresh : ∀ r, n.inboxCount ≤ r → n.sockets r = none ∧ n.receivers r = 0 ∧ n.created r = none
  freed : ∀ r, n.pointed r = false → n.buffer r = []

section Registry

variable {n n' : Net P}

theorem pointed_eq_false {r : InboxRc} : n.pointed r = false ↔
    n.sockets r = none ∧ n.receivers r = 0 ∧ ∀ key, n.created r = some key → n.inboxes key ≠ some r := by
  unfold pointed
  cases hs : n.sockets r <;> cases hc : n.created r <;> simp

/-- An inbox in the registry is the one created for its key. -/
theorem Registry.created_of_inboxes (hR : n.Registry) {key : Key} {r : InboxRc} (h : n.inboxes key = some r) :
    n.created r = some key := by
  cases hd : n.dropped with
  | true => rw [hR.gone hd key] at h; cases h
  | false =>
    obtain ⟨sock, hs, rfl⟩ := (hR.registered hd key r).mp h
    exact hR.created r sock hs

/-- There is at most one live socket for a key. -/
theorem Registry.unique (hR : n.Registry) (hd : n.dropped = false) {r r' : InboxRc} {sock sock' : Socket}
    (h : n.sockets r = some sock) (h' : n.sockets r' = some sock') (hk : sock.key = sock'.key) : r = r' := by
  have h1 := (hR.registered hd sock.key r).mpr ⟨sock, h, rfl⟩
  have h2 := (hR.registered hd sock'.key r').mpr ⟨sock', h', rfl⟩
  rw [hk, h2] at h1
  exact (Option.some.inj h1).symm

theorem pointed_congr (h1 : n'.inboxes = n.inboxes) (h2 : n'.sockets = n.sockets) (h3 : n'.receivers = n.receivers)
    (h4 : n'.created = n.created) (r : InboxRc) : n'.pointed r = n.pointed r := by
  unfold pointed
  rw [h1, h2, h3, h4]

/-- What leaves the pointers to inboxes alone keeps the registry, if it fills none that is not pointed to. -/
theorem Registry.keep (hR : n.Registry) (h1 : n'.inboxes = n.inboxes) (h2 : n'.sockets = n.sockets)
    (h3 : n'.receivers = n.receivers) (h4 : n'.created = n.created) (h5 : n'.inboxCount = n.inboxCount)
    (h6 : n'.dropped = n.dropped) (hb : ∀ r, n.pointed r = false → n.buffer r = [] → n'.buffer r = []) :
    n'.Registry where
  registered := by rw [h1, h2, h6]; exact hR.registered
  gone := by rw [h1, h6]; exact hR.gone
  created := by rw [h2, h4]; exact hR.created
  fresh r hr := by
    rw [h2, h3, h4]
    exact hR.fresh r (h5 ▸ hr)
  freed r hp := by
    rw [pointed_congr h1 h2 h3 h4] at hp
    exact hb r hp (hR.freed r hp)

/-- The last pointers to `r` may have gone. -/
theorem Registry.collect {r : InboxRc} (h1 : n.dropped = false → ∀ key r, n.inboxes key = some r ↔
      ∃ sock, n.sockets r = some sock ∧ sock.key = key)
    (h2 : n.dropped = true → ∀ key, n.inboxes key = none)
    (h3 : ∀ r sock, n.sockets r = some sock → n.created r = some sock.key)
    (h4 : ∀ r, n.inboxCount ≤ r → n.sockets r = none ∧ n.receivers r = 0 ∧ n.created r = none)
    (h5 : ∀ r', r' ≠ r → n.pointed r' = false → n.buffer r' = []) : (n.collect r).Registry where
  registered := by simpa using h1
  gone := by simpa using h2
  created := by simpa using h3
  fresh := by simpa using h4
  freed r' hp := by
    rw [pointed_congr (collect_inboxes n r) (collect_sockets n r) (collect_receivers n r)
      (collect_created n r)] at hp
    rw [collect_buffer]
    by_cases hr : r' = r
    · subst hr; simp [hp]
    · simp [hr, h5 r' hr hp]

theorem Registry.pointed_of_inboxes (hR : n.Registry) {key : Key} {r : InboxRc} (h : n.inboxes key = some r) :
    n.pointed r = true := by
  simp [pointed, hR.created_of_inboxes h, h]

theorem Registry.setBuffer (hR : n.Registry) {r : InboxRc} {msgs : List Msg} (h : n.pointed r = true) :
    (n.setBuffer r msgs).Registry := by
  refine hR.keep rfl rfl rfl rfl rfl rfl fun r' hp hb => ?_
  have hr : r' ≠ r := by rintro rfl; rw [h] at hp; cases hp
  simpa [hr] using hb

theorem Registry.lose (hR : n.Registry) (cause : LostCause) (msg : Msg) : (n.lose cause msg).Registry :=
  hR.keep (by simp) (by simp) (by simp) (by simp) (by simp) (by simp) fun r _ hb => by simpa using hb

theorem Registry.deliver (hR : n.Registry) (id : Id) (now : Instant) (d : Delivery) :
    (n.deliver id now d).Registry := by
  have h0 : ((n.land id).note (.attempt id now d.msg (n.accepts d.key))).Registry :=
    hR.keep rfl rfl rfl rfl rfl rfl fun r _ hb => hb
  unfold Net.deliver
  dsimp only
  split
  · exact h0.lose _ _
  · rename_i r hr
    split_ifs
    · exact h0.setBuffer (h0.pointed_of_inboxes hr)
    · exact h0.lose _ _

theorem Registry.receiveMsg (hR : n.Registry) {r : InboxRc} {ty : TypeId} {clone : Option P} {msg : Msg}
    (h : n.receiveMsg r ty clone msg = .ok n') : n'.Registry ∧ n'.receivers = n.receivers := by
  cases msg with
  | error kind =>
    cases h
    exact ⟨hR.keep rfl rfl rfl rfl rfl rfl fun _ _ hb => hb, rfl⟩
  | packet rc =>
    simp only [Net.receiveMsg] at h
    split at h
    · cases h
    · split_ifs at h
      obtain ⟨⟨value, cloned⟩, -, h⟩ := Except.bind_eq_ok_iff.mp h
      cases h
      exact ⟨hR.keep rfl rfl rfl rfl rfl rfl fun _ _ hb => hb, rfl⟩

theorem Registry.dropReceive (hR : n.Registry) {r : InboxRc} : (n.dropReceive r).Registry := by
  refine Registry.collect hR.registered hR.gone hR.created (fun r' hr => ?_) fun r' hr hp => ?_
  · obtain ⟨f1, f2, f3⟩ := hR.fresh r' hr
    refine ⟨f1, ?_, f3⟩
    by_cases h : r' = r
    · subst h; simp [f2]
    · simpa [h] using f2
  · refine hR.freed r' ?_
    simpa [pointed, hr] using hp

theorem Registry.openSocket (hR : n.Registry) {key : Key} {r : InboxRc} (hd : n.dropped = false)
    (h : n.openSocket key = .ok (r, n')) : n'.Registry := by
  unfold Net.openSocket at h
  split at h
  · cases h
  · rename_i hnone
    simp only [Except.ok.injEq, Prod.mk.injEq] at h
    obtain ⟨rfl, rfl⟩ := h
    have hother : ∀ {k : Key} {r : InboxRc}, n.inboxes k = some r → r ≠ n.inboxCount := by
      rintro k r hk rfl
      have := hR.created_of_inboxes hk
      rw [(hR.fresh _ le_rfl).2.2] at this
      cases this
    refine ⟨fun _ key' r' => ?_, fun h => absurd (hd.symm.trans h) Bool.false_ne_true, fun r' sock hs => ?_,
      fun r' hr => ?_, fun r' hp => ?_⟩
    · by_cases hr : r' = n.inboxCount
      · subst hr
        by_cases hk : key' = key
        · subst hk; simp [Socket.key]
        · have hne : n.inboxes key' ≠ some n.inboxCount := fun h => hother h rfl
          simp [hk, hne, Socket.key, Ne.symm hk]
      · by_cases hk : key' = key
        · subst hk
          have := (hR.registered hd key' r').not.mp (by rw [hnone]; simp)
          simpa [hr, Ne.symm hr] using this
        · simpa [hr, hk] using hR.registered hd key' r'
    · by_cases hr : r' = n.inboxCount
      · subst hr
        simp at hs
        subst hs
        simp [Socket.key]
      · simp [hr] at hs ⊢
        exact hR.created r' sock hs
    · have hne : r' ≠ n.inboxCount := by rintro rfl; simp at hr
      simpa [hne] using hR.fresh r' (by simp at hr; omega)
    · by_cases hr : r' = n.inboxCount
      · subst hr; simp
      · simp only [Function.update_of_ne hr]
        refine hR.freed r' ?_
        rw [pointed_eq_false] at hp ⊢
        simp only [Function.update_of_ne hr] at hp
        refine ⟨hp.1, hp.2.1, fun k hk h => hp.2.2 k hk ?_⟩
        have hkk : k ≠ key := by rintro rfl; rw [hnone] at h; cases h
        simpa [hkk] using h

theorem Registry.dropSocket (hR : n.Registry) {r : InboxRc} {sock : Socket} (hs : n.sockets r = some sock)
    (h : n.dropSocket r sock = .ok n') : n'.Registry := by
  unfold Net.dropSocket at h
  split_ifs at h with hin
  cases h
  have hd : n.dropped = false := by
    cases hd : n.dropped with
    | false => rfl
    | true => rw [hR.gone hd] at hin; cases hin
  refine Registry.collect (fun _ key r' => ?_) (fun h => absurd (hd.symm.trans h) Bool.false_ne_true)
    (fun r' sock' hs' => ?_) (fun r' hr => ?_) fun r' hr hp => hR.freed r' ?_
  · by_cases hr : r' = r
    · subst hr
      by_cases hk : key = sock.key
      · subst hk; simp
      · have : n.inboxes key ≠ some r' := fun h => by
          obtain ⟨sock', h1, h2⟩ := (hR.registered hd key r').mp h
          rw [hs] at h1
          cases h1
          exact hk h2.symm
        simp [hk, this]
    · by_cases hk : key = sock.key
      · subst hk
        have := (hR.registered hd sock.key r').not.mp (by rw [hin]; simpa using Ne.symm hr)
        simpa [hr] using this
      · simpa [hr, hk] using hR.registered hd key r'
  · by_cases hr : r' = r
    · subst hr; simp at hs'
    · exact hR.created r' sock' (by simpa [hr] using hs')
  · obtain ⟨f1, f2, f3⟩ := hR.fresh r' hr
    refine ⟨?_, f2, f3⟩
    by_cases h : r' = r
    · subst h; simp
    · simpa [h] using f1
  · rw [pointed_eq_false] at hp ⊢
    refine ⟨by simpa [hr] using hp.1, hp.2.1, fun k hk h => hp.2.2 k hk ?_⟩
    have hkk : k ≠ sock.key := by
      rintro rfl
      rw [hin] at h
      exact hr (Option.some.inj h).symm
    simpa [hkk] using h

theorem Registry.pollReceive (hR : n.Registry) {r : InboxRc} {ty : TypeId} {clone : Option P}
    (h0 : 0 < n.receivers r) (h : n.pollReceive r ty clone = .ok n') : n'.Registry := by
  unfold Net.pollReceive at h
  split at h
  · cases h; exact hR
  · obtain ⟨m, hm, h⟩ := Except.bind_eq_ok_iff.mp h
    cases h
    have hp : n.pointed r = true := by simp [pointed, h0]
    exact ((hR.setBuffer hp).receiveMsg hm).1.dropReceive

theorem Registry.drain (hR : n.Registry) (r : InboxRc) : (n.drain r).Registry := by
  unfold Net.drain
  split
  · exact hR
  · rename_i msg msgs hb
    refine Registry.lose (hR.setBuffer ?_) _ _
    by_contra hp
    rw [hR.freed r (by simpa using hp)] at hb
    cases hb

theorem Registry.act (hR : n.Registry) (h : Act n n') : n'.Registry := by
  cases h with
  | newPacket | sent | dropPacket | enqueuePacket | enqueueError =>
    exact hR.keep rfl rfl rfl rfl rfl rfl fun _ _ hb => hb
  | deliver id now d h => exact hR.deliver id now d
  | abortDelivery id d h =>
    have h0 : (n.land id).Registry := hR.keep rfl rfl rfl rfl rfl rfl fun _ _ hb => hb
    exact h0.lose _ _
  | openSocket key r n' hd h => exact hR.openSocket hd h
  | dropSocket r sock n' hs h => exact hR.dropSocket hs h
  | receive r h =>
    refine ⟨hR.registered, hR.gone, hR.created, fun r' hr => ?_, fun r' hp => hR.freed r' ?_⟩
    · obtain ⟨f1, f2, f3⟩ := hR.fresh r' hr
      have hne : r' ≠ r := by rintro rfl; exact h f1
      simpa [hne] using ⟨f1, f2, f3⟩
    · rw [pointed_eq_false] at hp ⊢
      by_cases hr : r' = r
      · subst hr; exact absurd hp.1 h
      · simpa [hr] using hp
  | dropReceive r h => exact hR.dropReceive
  | pollReceive r key clone n' h hk hp => exact hR.pollReceive h hp
  | drain r key h => exact hR.drain r
  | dropNet =>
    refine ⟨fun h => absurd h (by simp [Net.dropNet]), fun _ _ => rfl, hR.created, hR.fresh,
      fun r hp => hR.freed r ?_⟩
    rw [pointed_eq_false] at hp ⊢
    refine ⟨hp.1, hp.2.1, fun key _ h => ?_⟩
    cases hd : n.dropped with
    | true => rw [hR.gone hd] at h; cases h
    | false =>
      obtain ⟨sock, hs, -⟩ := (hR.registered hd key r).mp h
      have h1 : n.sockets r = none := hp.1
      rw [h1] at hs
      cases hs

theorem Registry.clonePacket (hR : n.Registry) (rc : PacketRc) : (n.clonePacket rc).Registry :=
  hR.keep rfl rfl rfl rfl rfl rfl fun _ _ hb => hb

theorem registry_new : (Net.new : Net P).Registry where
  registered _ key r := by simp [Net.new]
  gone h := by cases h
  created r sock h := by cases h
  fresh r _ := ⟨rfl, rfl, rfl⟩
  freed r _ := rfl

end Registry

/-! ## Every message fits its inbox -/

/-- A message for `key` is an error, or a packet with that address and type. -/
def Fits (n : Net P) (key : Key) (msg : Msg) : Prop :=
  ∀ rc, msg = .packet rc → ∃ w, n.packets rc = some w ∧ key = (w.header.dst, w.header.ty)

structure Typed (n : Net P) : Prop where
  header : ∀ rc w, n.packets rc = some w → w.header.ty = w.packet.ty
  known : ∀ rc, n.packetCount ≤ rc → n.packets rc = none
  inFlight : ∀ id d, n.inFlight id = some d → n.Fits d.key d.msg
  buffered : ∀ r msg, msg ∈ n.buffer r → ∃ key, n.created r = some key ∧ n.Fits key msg
  received : ∀ r rc value src cloned, .received r rc value src cloned ∈ n.log → ∃ w, n.packets rc = some w ∧
    n.created r = some (w.header.dst, w.packet.ty) ∧ src = w.header.src ∧ (cloned = false → value = w.packet.value)

section Typed

variable {n n' : Net P}

/-- Packets and inboxes stay what they are. -/
structure Grows (n n' : Net P) : Prop where
  packets : ∀ rc w, n.packets rc = some w → n'.packets rc = some w
  created : ∀ r key, n.created r = some key → n'.created r = some key

theorem Fits.grows (hG : Grows n n') {key : Key} {msg : Msg} (h : n.Fits key msg) :
    n'.Fits key msg := fun rc hrc => by
  obtain ⟨w, hw, hk⟩ := h rc hrc
  exact ⟨w, hG.packets rc w hw, hk⟩

/-- What makes no packet keeps `Typed`, if it adds only messages that fit. -/
theorem Typed.keep (hT : n.Typed) (h1 : n'.packets = n.packets) (h2 : n'.packetCount = n.packetCount)
    (hc : ∀ r key, n.created r = some key → n'.created r = some key)
    (hf : ∀ id d, n'.inFlight id = some d → n.inFlight id = some d ∨ n.Fits d.key d.msg)
    (hb : ∀ r msg, msg ∈ n'.buffer r → msg ∈ n.buffer r ∨ ∃ key, n'.created r = some key ∧ n.Fits key msg)
    (hl : ∀ r rc value src cloned, .received r rc value src cloned ∈ n'.log →
      .received r rc value src cloned ∈ n.log) :
    n'.Typed := by
  have hG : Grows n n' := ⟨fun rc w h => by rw [h1]; exact h, hc⟩
  refine ⟨by rw [h1]; exact hT.header, by rw [h1, h2]; exact hT.known, fun id d h => ?_, fun r msg h => ?_,
    fun r rc value src cloned h => ?_⟩
  · rcases hf id d h with h | h
    · exact (hT.inFlight id d h).grows hG
    · exact h.grows hG
  · rcases hb r msg h with h | ⟨key, hk, h⟩
    · obtain ⟨key, hk, h⟩ := hT.buffered r msg h
      exact ⟨key, hc r key hk, h.grows hG⟩
    · exact ⟨key, hk, h.grows hG⟩
  · obtain ⟨w, hw, hk, h⟩ := hT.received r rc value src cloned (hl r rc value src cloned h)
    exact ⟨w, hG.packets rc w hw, hc r _ hk, h⟩

theorem mem_note {o o' : NetObs P} (h : o' ∈ (n.note o).log) (hne : o' ≠ o) : o' ∈ n.log := by
  simpa [hne] using h

theorem Typed.note (hT : n.Typed) {o : NetObs P}
    (ho : ∀ r rc value src cloned, o ≠ .received r rc value src cloned) : (n.note o).Typed :=
  hT.keep rfl rfl (fun _ _ h => h) (fun _ _ h => Or.inl h) (fun _ _ h => Or.inl h)
    fun r rc value src cloned h => mem_note h (Ne.symm (ho r rc value src cloned))

theorem mem_lose {cause : LostCause} {msg : Msg} {o : NetObs P} (h : o ∈ (n.lose cause msg).log)
    (ho : ∀ rc, o ≠ .lost rc cause) : o ∈ n.log := by
  cases msg with
  | error kind => exact h
  | packet rc => exact mem_note (n := n.release rc) h (ho rc)

theorem Typed.lose (hT : n.Typed) (cause : LostCause) (msg : Msg) : (n.lose cause msg).Typed :=
  hT.keep (by simp) (by simp) (by simp) (fun _ _ h => Or.inl (by simpa using h))
    (fun _ _ h => Or.inl (by simpa using h)) fun r rc value src cloned h => mem_lose h fun _ => by simp

theorem Typed.setBuffer (hT : n.Typed) {r : InboxRc} {msgs : List Msg}
    (h : ∀ msg ∈ msgs, msg ∈ n.buffer r ∨ ∃ key, n.created r = some key ∧ n.Fits key msg) :
    (n.setBuffer r msgs).Typed := by
  refine hT.keep rfl rfl (fun _ _ h => h) (fun _ _ h => Or.inl h) (fun r' msg hm => ?_) fun _ _ _ _ _ h => h
  by_cases hr : r' = r
  · subst hr
    exact h msg (by simpa using hm)
  · exact Or.inl (by simpa [hr] using hm)

theorem Typed.collect (hT : n.Typed) (r : InboxRc) : (n.collect r).Typed := by
  rw [collect_eq]
  split
  · exact hT
  · have key : ∀ (msgs : List Msg) (n : Net P), n.Typed →
      (msgs.foldl (fun n msg => n.lose .inboxFreed msg) n).Typed := by
      intro msgs
      induction msgs with
      | nil => exact fun _ h => h
      | cons msg msgs ih => exact fun n h => ih _ (h.lose _ msg)
    exact key _ _ (hT.setBuffer fun _ h => absurd h (List.not_mem_nil))

theorem Typed.land (hT : n.Typed) (id : Id) : (n.land id).Typed := by
  refine hT.keep rfl rfl (fun _ _ h => h) (fun id' d h => Or.inl ?_) (fun _ _ h => Or.inl h) fun _ _ _ _ _ h => h
  by_cases hid : id' = id
  · subst hid; simp at h
  · simpa [hid] using h

theorem Typed.enqueue (hT : n.Typed) (id : Id) (t : Instant) {key : Key} {msg : Msg} (h : n.Fits key msg) :
    (n.enqueue id t key msg).Typed := by
  refine hT.keep rfl rfl (fun _ _ h => h) (fun id' d hd => ?_) (fun _ _ h => Or.inl h) fun _ _ _ _ _ h => h
  by_cases hid : id' = id
  · subst hid
    simp at hd
    subst hd
    exact Or.inr h
  · exact Or.inl (by simpa [hid] using hd)

theorem Typed.deliver (hT : n.Typed) (hR : n.Registry) {id : Id} (now : Instant) {d : Delivery}
    (h : n.inFlight id = some d) : (n.deliver id now d).Typed := by
  have h0 : ((n.land id).note (.attempt id now d.msg (n.accepts d.key))).Typed := (hT.land id).note (by simp)
  unfold Net.deliver
  dsimp only
  split
  · exact h0.lose _ _
  · rename_i r hr
    split_ifs
    · refine h0.setBuffer fun msg hm => ?_
      rcases List.mem_append.mp hm with hm | hm
      · exact Or.inl hm
      · rw [List.mem_singleton.mp hm]
        exact Or.inr ⟨d.key, hR.created_of_inboxes hr, hT.inFlight id d h⟩
    · exact h0.lose _ _

theorem Typed.receiveMsg (hT : n.Typed) {r : InboxRc} {key : Key} {clone : Option P} {msg : Msg}
    (hk : n.created r = some key) (hf : n.Fits key msg) (h : n.receiveMsg r key.2 clone msg = .ok n') :
    n'.Typed := by
  cases msg with
  | error kind =>
    cases h
    exact hT.note (by simp)
  | packet rc =>
    simp only [Net.receiveMsg] at h
    split at h
    · cases h
    · rename_i w hw
      split_ifs at h with hty
      obtain ⟨⟨value, cloned⟩, hu, h⟩ := Except.bind_eq_ok_iff.mp h
      cases h
      refine ⟨hT.header, hT.known, hT.inFlight, hT.buffered, fun r' rc' value' src' cloned' hm => ?_⟩
      simp only [note_log, release_log, List.mem_append, List.mem_singleton, NetObs.received.injEq] at hm
      rcases hm with hm | ⟨rfl, rfl, rfl, rfl, rfl⟩
      · exact hT.received r' rc' value' src' cloned' hm
      · obtain ⟨w', hw', hkey⟩ := hf rc' rfl
        rw [hw] at hw'
        cases hw'
        refine ⟨w, hw, ?_, rfl, fun hc => ?_⟩
        · rw [note_created, release_created, hk, hkey, hT.header _ _ hw]
        · unfold unwrapPacket at hu
          split at hu
          · cases hu; rfl
          · split at hu
            · cases hu
            · cases hu; cases hc

theorem Typed.pollReceive (hT : n.Typed) {r : InboxRc} {key : Key} {clone : Option P} (hk : n.created r = some key)
    (h : n.pollReceive r key.2 clone = .ok n') : n'.Typed := by
  unfold Net.pollReceive at h
  split at h
  · cases h; exact hT
  · rename_i msg msgs hb
    obtain ⟨m, hm, h⟩ := Except.bind_eq_ok_iff.mp h
    cases h
    obtain ⟨key', hk', hf⟩ := hT.buffered r msg (by rw [hb]; exact List.mem_cons_self)
    rw [hk] at hk'
    cases hk'
    have h1 : m.Typed :=
      (hT.setBuffer fun msg hm => Or.inl (by rw [hb]; exact List.mem_cons_of_mem _ hm)).receiveMsg hk hf hm
    refine Typed.collect ?_ r
    exact h1.keep rfl rfl (fun _ _ h => h) (fun _ _ h => Or.inl h) (fun _ _ h => Or.inl h) fun _ _ _ _ _ h => h

theorem Typed.act (hT : n.Typed) (hR : n.Registry) (h : Act n n') : n'.Typed := by
  have hkeep : ∀ {m : Net P}, m.packets = n.packets → m.packetCount = n.packetCount → m.created = n.created →
      m.inFlight = n.inFlight → m.buffer = n.buffer → m.log = n.log → m.Typed := fun h1 h2 h3 h4 h5 h6 =>
    hT.keep h1 h2 (by simp [h3]) (fun _ _ h => Or.inl (h4 ▸ h)) (fun _ _ h => Or.inl (h5 ▸ h))
      fun _ _ _ _ _ h => h6 ▸ h
  cases h with
  | newPacket src dst packet level =>
    have hG : Grows n (n.newPacket src dst packet level).2 := by
      refine ⟨fun rc w h => ?_, fun _ _ h => h⟩
      have hne : rc ≠ n.packetCount := by rintro rfl; rw [hT.known _ le_rfl] at h; cases h
      simpa [Net.newPacket, hne] using h
    refine ⟨fun rc w h => ?_, fun rc hrc => ?_, fun id d h => (hT.inFlight id d h).grows hG, fun r msg h => ?_,
      fun r rc value src' cloned h => ?_⟩
    · by_cases hrc : rc = n.packetCount
      · subst hrc
        simp [Net.newPacket] at h
        subst h
        rfl
      · exact hT.header rc w (by simpa [Net.newPacket, hrc] using h)
    · simp only [Net.newPacket] at hrc ⊢
      have hne : rc ≠ n.packetCount := by omega
      simpa [hne] using hT.known rc (by omega)
    · obtain ⟨key, hk, hf⟩ := hT.buffered r msg h
      exact ⟨key, hk, hf.grows hG⟩
    · obtain ⟨w, hw, h⟩ := hT.received r rc value src' cloned h
      exact ⟨w, hG.packets rc w hw, h⟩
  | sent rc now => exact hT.note (by simp)
  | dropPacket rc h => exact (hkeep (m := (n.letGo rc).release rc) rfl rfl rfl rfl rfl rfl).note (by simp)
  | enqueuePacket id t rc w h hp hid =>
    refine ((hkeep (m := n.letGo rc) rfl rfl rfl rfl rfl rfl).enqueue id t fun rc' hrc => ?_).note (by simp)
    cases hrc
    exact ⟨w, hp, rfl⟩
  | enqueueError id t dst ty kind hid => exact hT.enqueue id t fun rc' hrc => by cases hrc
  | deliver id now d h => exact hT.deliver hR now h
  | abortDelivery id d h => exact (hT.land id).lose _ _
  | openSocket key r n' hd h =>
    unfold Net.openSocket at h
    split at h
    · cases h
    · simp only [Except.ok.injEq, Prod.mk.injEq] at h
      obtain ⟨rfl, rfl⟩ := h
      refine hT.keep rfl rfl (fun r key hk => ?_) (fun _ _ h => Or.inl h) (fun r msg hm => Or.inl ?_)
        fun _ _ _ _ _ h => h
      · have hne : r ≠ n.inboxCount := by rintro rfl; rw [(hR.fresh _ le_rfl).2.2] at hk; cases hk
        simpa [hne] using hk
      · by_cases hr : r = n.inboxCount
        · subst hr; simp at hm
        · simpa [hr] using hm
  | dropSocket r sock n' hs h =>
    unfold Net.dropSocket at h
    split_ifs at h
    cases h
    refine Typed.collect ?_ r
    exact hkeep rfl rfl rfl rfl rfl rfl
  | receive r h => exact hkeep rfl rfl rfl rfl rfl rfl
  | dropReceive r h =>
    refine Typed.collect ?_ r
    exact hkeep rfl rfl rfl rfl rfl rfl
  | pollReceive r key clone n' h hk hp => exact hT.pollReceive hk hp
  | drain r key h =>
    unfold Net.drain
    split
    · exact hT
    · rename_i msg msgs hb
      exact (hT.setBuffer fun msg hm => Or.inl (by rw [hb]; exact List.mem_cons_of_mem _ hm)).lose _ _
  | dropNet => exact hkeep rfl rfl rfl rfl rfl rfl

theorem Typed.clonePacket (hT : n.Typed) (rc : PacketRc) : (n.clonePacket rc).Typed :=
  hT.keep rfl rfl (fun _ _ h => h) (fun _ _ h => Or.inl h) (fun _ _ h => Or.inl h) fun _ _ _ _ _ h => h

theorem typed_new : (Net.new : Net P).Typed where
  header rc w h := by cases h
  known rc _ := rfl
  inFlight id d h := by cases h
  buffered r msg h := by cases h
  received r rc value src cloned h := by cases h

end Typed

/-! ## No packet is lost track of -/

section Kept

variable {n n' : Net P} {rc : PacketRc}

/-- What leaves the copies alone keeps them. -/
theorem Kept.keep (hK : n.Kept rc) (hc : n'.packetCount = n.packetCount) (hrow : ∀ pl, n'.row rc pl = n.row rc pl)
    (hs : n'.strong rc = n.strong rc) (he : n'.timesEnqueued rc = n.timesEnqueued rc) : n'.Kept rc :=
  hK.moved hc (.same hrow hs he)

/-- The row reads only these fields. -/
theorem row_congr (h1 : n'.held = n.held) (h2 : n'.inFlight = n.inFlight) (h3 : n'.buffer = n.buffer)
    (h4 : n'.log = n.log) (rc : PacketRc) (pl : Place) : n'.row rc pl = n.row rc pl := by
  cases pl <;> simp [row, h1, h2, h3, h4]

theorem Kept.congr (hK : n.Kept rc) (h0 : n'.packetCount = n.packetCount) (h1 : n'.held = n.held)
    (h2 : n'.inFlight = n.inFlight) (h3 : n'.buffer = n.buffer) (h4 : n'.log = n.log) (h5 : n'.strong = n.strong) :
    n'.Kept rc :=
  hK.keep h0 (row_congr h1 h2 h3 h4 rc) (congrFun h5 rc) (by simp [timesEnqueued, h4])

theorem Kept.collect (hK : n.Kept rc) (r : InboxRc) : (n.collect r).Kept rc :=
  hK.moved (collect_packetCount n r) (moved_collect hK.le_one r)

theorem Kept.newPacket (hK : n.Kept rc) (src dst : Addr) (packet : Packet P) (level : ServiceLevel) :
    (n.newPacket src dst packet level).2.Kept rc := by
  have hrow : ∀ pl, rc ≠ n.packetCount → (n.newPacket src dst packet level).2.row rc pl = n.row rc pl := by
    intro pl h
    cases pl <;> simp [Net.newPacket, row, h]
  refine ⟨fun hrc => ?_, fun hrc => ?_⟩
  · replace hrc : n.packetCount + 1 ≤ rc := hrc
    obtain ⟨hz, he⟩ := hK.none (by omega)
    exact ⟨fun pl => (hrow pl (Nat.ne_of_gt hrc)).trans (hz pl), he⟩
  · by_cases h : rc = n.packetCount
    · subst h
      obtain ⟨hz, he⟩ := hK.none le_rfl
      refine ⟨.held, Custody.at_of_zero hz fun pl => ?_, by simp [Net.newPacket, Place.pointed], he⟩
      cases pl with
      | held =>
        have h0 : n.held n.packetCount = 0 := hz .held
        simp [Net.newPacket, row, h0]
      | _ => simp [Net.newPacket, row]
    · replace hrc : rc < n.packetCount + 1 := hrc
      obtain ⟨pl, hpl⟩ := hK.one (Nat.lt_of_le_of_ne (Nat.le_of_lt_succ hrc) h)
      exact ⟨pl, hpl.row.congr (fun q => hrow q h), by simpa [Net.newPacket, h] using hpl.strong, hpl.enqueued⟩

/-- Another packet is cloned. -/
theorem Kept.clonePacket (hK : n.Kept rc) {i : PacketRc} (hi : rc ≠ i) : (n.clonePacket i).Kept rc := by
  refine hK.keep rfl (fun pl => ?_) ?_ rfl
  · cases pl <;> simp [Net.clonePacket, row, hi]
  · simp [Net.clonePacket, hi]

theorem moved_dropPacket {i : PacketRc} (h : 0 < n.held i) (rc : PacketRc) : Moved n (n.dropPacket i) rc := by
  have hrow : ∀ pl, (n.dropPacket i).row rc pl =
      (n.row rc pl - if rc = i ∧ pl = .held then 1 else 0) + if rc = i ∧ pl = .unsent then 1 else 0 := by
    intro pl
    cases pl with
    | held => by_cases hrc : rc = i <;> simp [dropPacket, row, hrc]
    | unsent =>
      have heq : (i = rc) = (rc = i) := propext eq_comm
      simp [dropPacket, row, List.countP_append, List.countP_cons, NetObs.isUnsent, heq]
    | _ => simp [dropPacket, row, List.countP_append, NetObs.isReceived, NetObs.isLost]
  have he : (n.dropPacket i).timesEnqueued rc = n.timesEnqueued rc := by
    simp [dropPacket, timesEnqueued, List.countP_append, NetObs.isEnqueued]
  by_cases hrc : rc = i
  · subst hrc
    refine .moved .held .unsent h rfl (fun x => ?_) (by simp [dropPacket, Place.pointed]) he fun h => by cases h
    rw [hrow]
    have h' : 0 < n.row rc .held := h
    by_cases hx : x = .held
    · subst hx; simp; omega
    · simp [hx]
  · exact .same (fun pl => by rw [hrow]; simp [hrc]) (by simp [dropPacket, hrc]) he

theorem moved_enqueuePacket {id : Id} {t : Instant} {i : PacketRc} {w : WrappedPacket P} (h : 0 < n.held i)
    (hid : n.inFlight id = none) (rc : PacketRc) : Moved n (n.enqueuePacket id t i w) rc := by
  have heq : (i = rc) = (rc = i) := propext eq_comm
  have hrow : ∀ pl, (n.enqueuePacket id t i w).row rc pl =
      (n.row rc pl - if rc = i ∧ pl = .held then 1 else 0) + if rc = i ∧ pl = .inFlight id then 1 else 0 := by
    intro pl
    cases pl with
    | held => by_cases hrc : rc = i <;> simp [enqueuePacket, row, hrc]
    | inFlight id' =>
      by_cases hid' : id' = id
      · subst hid'; simp [enqueuePacket, row, hid, heq]
      · simp [enqueuePacket, row, hid']
    | _ => simp [enqueuePacket, row, List.countP_append, NetObs.isReceived, NetObs.isLost, NetObs.isUnsent]
  have he : (n.enqueuePacket id t i w).timesEnqueued rc = n.timesEnqueued rc + if rc = i then 1 else 0 := by
    simp [enqueuePacket, timesEnqueued, List.countP_append, List.countP_cons, NetObs.isEnqueued, heq]
  by_cases hrc : rc = i
  · subst hrc
    refine .moved .held (.inFlight id) h rfl (fun x => ?_) rfl (by rw [he]; simp [Place.enqueued]) fun _ => rfl
    rw [hrow]
    have h' : 0 < n.row rc .held := h
    by_cases hx : x = .held
    · subst hx; simp; omega
    · simp [hx]
  · exact .same (fun pl => by rw [hrow]; simp [hrc]) rfl (by rw [he]; simp [hrc])

theorem kept_enqueueError (hK : n.Kept rc) {id : Id} (t : Instant) (key : Key) (kind : ErrorKind)
    (hid : n.inFlight id = none) : (n.enqueue id t key (.error kind)).Kept rc := by
  refine hK.keep rfl (fun pl => ?_) rfl rfl
  cases pl with
  | inFlight id' =>
    by_cases h : id' = id
    · subst h; simp [row, hid]
    · simp [row, h]
  | _ => rfl

/-- The receiver takes the message. -/
theorem moved_receiveMsg {m : Net P} {r : InboxRc} {ty : TypeId} {clone : Option P} {msg : Msg} {rc : PacketRc}
    (hrow : ∀ pl, n.row rc pl = m.row rc pl + if msg = .packet rc ∧ pl = .buffered r then 1 else 0)
    (hs : m.strong rc = n.strong rc) (he : m.timesEnqueued rc = n.timesEnqueued rc)
    (h : m.receiveMsg r ty clone msg = .ok n') : Moved n n' rc := by
  cases msg with
  | error kind =>
    cases h
    refine .same (fun pl => ?_) hs (by simpa [timesEnqueued, List.countP_append, NetObs.isEnqueued] using he)
    have := hrow pl
    simp only [reduceCtorEq, false_and, if_false, Nat.add_zero] at this
    rw [this]
    cases pl <;> simp [row, List.countP_append, NetObs.isReceived, NetObs.isLost, NetObs.isUnsent]
  | packet i =>
    simp only [Net.receiveMsg] at h
    split at h
    · cases h
    · rename_i w hw
      split_ifs at h
      obtain ⟨⟨value, cloned⟩, -, h⟩ := Except.bind_eq_ok_iff.mp h
      cases h
      have hrow' : ∀ pl, ((m.release i).note (.received r i value w.header.src cloned)).row rc pl =
          m.row rc pl + if i = rc ∧ pl = .received then 1 else 0 := by
        intro pl
        cases pl <;>
          simp [row, List.countP_append, List.countP_cons, NetObs.isReceived, NetObs.isLost, NetObs.isUnsent]
      have he' : ((m.release i).note (.received r i value w.header.src cloned)).timesEnqueued rc =
          n.timesEnqueued rc := by
        simpa [timesEnqueued, List.countP_append, NetObs.isEnqueued] using he
      by_cases hrc : i = rc
      · subst hrc
        refine .moved (.buffered r) .received (by rw [hrow]; simp) rfl (fun x => ?_)
          (by simp [Place.pointed, hs]) he' fun _ => rfl
        rw [hrow', hrow x]
        simp only [true_and]
        omega
      · refine .same (fun pl => ?_) ?_ he'
        · rw [hrow', hrow pl]; simp [hrc]
        · simpa [Ne.symm hrc] using hs

theorem Kept.pollReceive (hK : n.Kept rc) {r : InboxRc} {ty : TypeId} {clone : Option P}
    (h : n.pollReceive r ty clone = .ok n') : n'.Kept rc := by
  unfold Net.pollReceive at h
  split at h
  · cases h; exact hK
  · rename_i msg msgs hb
    obtain ⟨m, hm, h⟩ := Except.bind_eq_ok_iff.mp h
    cases h
    have hcount : m.packetCount = n.packetCount := by
      cases msg with
      | error kind => cases hm; rfl
      | packet rc =>
        simp only [Net.receiveMsg] at hm
        split at hm
        · cases hm
        · split_ifs at hm
          obtain ⟨⟨value, cloned⟩, -, hm⟩ := Except.bind_eq_ok_iff.mp hm
          cases hm
          rfl
    have h1 : m.Kept rc := hK.moved hcount (moved_receiveMsg (row_buffered hb rc) rfl rfl hm)
    refine Kept.collect ?_ r
    exact h1.congr rfl rfl rfl rfl rfl rfl

/-- **One place.**  No act loses track of the packet. -/
theorem Kept.act (hK : n.Kept rc) (hR : n.Registry) (h : Act n n') : n'.Kept rc := by
  cases h with
  | newPacket src dst packet level => exact hK.newPacket src dst packet level
  | sent i now =>
    refine hK.keep rfl (fun pl => ?_) rfl (by simp [timesEnqueued, List.countP_append, NetObs.isEnqueued])
    cases pl <;> simp [row, List.countP_append, NetObs.isReceived, NetObs.isLost, NetObs.isUnsent]
  | dropPacket i h => exact hK.moved rfl (moved_dropPacket h rc)
  | enqueuePacket id t i w h hp hid => exact hK.moved rfl (moved_enqueuePacket h hid rc)
  | enqueueError id t dst ty kind hid => exact kept_enqueueError hK t (dst, ty) kind hid
  | deliver id now d h =>
    refine hK.moved ?_ (moved_deliver h rc)
    unfold Net.deliver
    dsimp only
    split
    · simp
    · split_ifs
      · rfl
      · simp
  | abortDelivery id d h =>
    exact hK.moved (by simp [abortDelivery]) (moved_lose rfl rfl (row_inFlight h rc) rfl rfl)
  | openSocket key r n' hd h =>
    unfold Net.openSocket at h
    split at h
    · cases h
    · simp only [Except.ok.injEq, Prod.mk.injEq] at h
      obtain ⟨rfl, rfl⟩ := h
      have hb : n.buffer n.inboxCount = [] := by
        obtain ⟨f1, f2, f3⟩ := hR.fresh _ le_rfl
        exact hR.freed _ (pointed_eq_false.mpr ⟨f1, f2, fun k hk => by rw [f3] at hk; cases hk⟩)
      refine hK.congr rfl rfl rfl ?_ rfl rfl
      exact Function.update_eq_self_iff.mpr hb.symm
  | dropSocket r sock n' hs h =>
    unfold Net.dropSocket at h
    split_ifs at h
    cases h
    refine Kept.collect ?_ r
    exact hK.congr rfl rfl rfl rfl rfl rfl
  | receive r h => exact hK.congr rfl rfl rfl rfl rfl rfl
  | dropReceive r h =>
    refine Kept.collect ?_ r
    exact hK.congr rfl rfl rfl rfl rfl rfl
  | pollReceive r key clone n' h hk hp => exact hK.pollReceive hp
  | drain r key h =>
    unfold Net.drain
    split
    · exact hK
    · rename_i msg msgs hb
      exact hK.moved (by simp) (moved_lose rfl rfl (row_buffered hb rc) rfl rfl)
  | dropNet => exact hK.congr rfl rfl rfl rfl rfl rfl

theorem kept_new (rc : PacketRc) : (Net.new : Net P).Kept rc where
  none _ := ⟨fun pl => by cases pl <;> rfl, rfl⟩
  one h := absurd h (Nat.not_lt_zero rc)

end Kept

end Net

end Refault
