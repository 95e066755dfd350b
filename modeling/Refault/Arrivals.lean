import Refault.Lib.LossyFifo
import Refault.Delivery

/-!
# Refault.Arrivals — the order of arrival

The attempts to deliver are in the order of time, and an inbox gives its messages out in the order of the
attempts that put them in.  So packets that were sent at different times through `perfect_connectivity` are
received in the order in which they were sent.
-/

namespace Refault

/-! ## An inbox is a queue -/

/-- What is observed, if it is a message that is received from the inbox `r`. -/
def NetObs.receipt {P : Type} (r : InboxRc) : NetObs P → Option Msg
  | .received i rc _ _ _ => if i = r then some (.packet rc) else none
  | .receivedError i kind => if i = r then some (.error kind) else none
  | _ => none

namespace Net

variable {P : Type} {n n' : Net P} {r : InboxRc}

/-- The attempts that put their message into the inbox `r`. -/
def arrivals (n : Net P) (r : InboxRc) : List Attempt := n.attempts.filter (·.into = some r)

/-- The messages received from the inbox `r`. -/
def receipts (n : Net P) (r : InboxRc) : List Msg := n.log.filterMap (NetObs.receipt r)

/-- What was received from the inbox `r`, and what is in it, came in in that order; it holds no more than it
has room for. -/
structure Queued (n : Net P) (r : InboxRc) : Prop where
  fifo : LossyFifo ((n.arrivals r).map (·.msg)) (n.receipts r) (n.buffer r)
  room : (n.buffer r).length ≤ capacity

theorem receipts_note (n : Net P) (r : InboxRc) (o : NetObs P) :
    (n.note o).receipts r = n.receipts r ++ (o.receipt r).toList := by
  unfold receipts
  rw [note_log, List.filterMap_append]
  cases h : o.receipt r <;> simp [h]

theorem receipts_quiet (n : Net P) {o : NetObs P} (ho : o.receipt r = none) :
    (n.note o).receipts r = n.receipts r := by
  rw [receipts_note, ho]
  exact List.append_nil _

@[simp] theorem receipts_lose (n : Net P) (r : InboxRc) (cause : LostCause) (msg : Msg) :
    (n.lose cause msg).receipts r = n.receipts r := by
  cases msg with
  | error kind => rfl
  | packet rc => exact receipts_quiet _ rfl

@[simp] theorem receipts_collect (n : Net P) (r i : InboxRc) : (n.collect i).receipts r = n.receipts r :=
  collect_frame n i (·.receipts r) (fun n msg => receipts_lose n r _ msg) rfl

theorem receipts_deliver (n : Net P) (r : InboxRc) (id : Id) (now : Instant) (d : Delivery) :
    (n.deliver id now d).receipts r = n.receipts r := by
  have h0 : ((n.land id).note (.attempt id now d.msg (n.accepts d.key))).receipts r = n.receipts r :=
    receipts_quiet _ rfl
  unfold deliver
  dsimp only
  split
  · rw [receipts_lose, h0]
  · split_ifs
    · exact h0
    · rw [receipts_lose, h0]

theorem Queued.congr (h : n.Queued r) (h1 : n'.attempts = n.attempts) (h2 : n'.receipts r = n.receipts r)
    (h3 : n'.buffer r = n.buffer r) : n'.Queued r := by
  refine ⟨?_, by rw [h3]; exact h.room⟩
  rw [arrivals, h1, h2, h3]
  exact h.fifo

theorem Queued.collect (h : n.Queued r) (i : InboxRc) : (n.collect i).Queued r := by
  have h1 : (n.collect i).attempts = n.attempts := attempts_collect n i
  have h2 : (n.collect i).receipts r = n.receipts r := receipts_collect n r i
  by_cases hi : r = i ∧ n.pointed i = false
  · have h3 : (n.collect i).buffer r = [] := by rw [collect_buffer, if_pos hi]
    refine ⟨?_, by rw [h3]; exact Nat.zero_le _⟩
    rw [arrivals, h1, h2, h3]
    exact h.fifo.clear
  · exact h.congr h1 h2 (by rw [collect_buffer, if_neg hi])

theorem Queued.deliver (h : n.Queued r) (id : Id) (now : Instant) (d : Delivery) :
    (n.deliver id now d).Queued r := by
  have hacc : n.accepts d.key = some r ↔ n.inboxes d.key = some r ∧ (n.buffer r).length < capacity := by
    simp [accepts, Option.filter_eq_some_iff]
  have harr : (n.deliver id now d).arrivals r = n.arrivals r ++ if n.accepts d.key =
      some r then [⟨id, now, d.msg, some r⟩] else [] := by
    rw [arrivals, attempts_deliver, List.filter_append, arrivals]
    by_cases hr : n.accepts d.key = some r <;> simp [hr]
  by_cases hr : n.accepts d.key = some r
  · have hbuf : (n.deliver id now d).buffer r = n.buffer r ++ [d.msg] := by
      rw [deliver_buffer, if_pos (hacc.mp hr)]
    refine ⟨?_, ?_⟩
    · rw [harr, if_pos hr, receipts_deliver, hbuf, List.map_append]
      exact h.fifo.push d.msg
    · rw [hbuf, List.length_append]
      exact (hacc.mp hr).2
  · have hbuf : (n.deliver id now d).buffer r = n.buffer r := by
      rw [deliver_buffer, if_neg fun h0 => hr (hacc.mpr h0)]
    refine ⟨?_, by rw [hbuf]; exact h.room⟩
    rw [harr, if_neg hr, List.append_nil, receipts_deliver, hbuf]
    exact h.fifo

theorem receiveMsg_frame {i : InboxRc} {ty : TypeId} {clone : Option P} {msg : Msg}
    (h : n.receiveMsg i ty clone msg = .ok n') :
    n'.attempts = n.attempts ∧ n'.buffer = n.buffer ∧ ∀ r, n'.receipts r = n.receipts r ++ if i =
    r then [msg] else [] := by
  cases msg with
  | error kind =>
    cases h
    refine ⟨attempts_quiet _ (by rintro _ _ _ _ ⟨⟩), rfl, fun r => ?_⟩
    rw [receipts_note]
    by_cases hi : i = r <;> simp [NetObs.receipt, hi]
  | packet rc =>
    simp only [receiveMsg] at h
    split at h
    · cases h
    · split_ifs at h
      obtain ⟨⟨value, cloned⟩, -, h⟩ := Except.bind_eq_ok_iff.mp h
      cases h
      refine ⟨attempts_quiet _ (by rintro _ _ _ _ ⟨⟩), rfl, fun r => ?_⟩
      rw [receipts_note]
      by_cases hi : i = r <;> simp [NetObs.receipt, hi, receipts]

theorem Queued.dropReceive (h : n.Queued r) (i : InboxRc) : (n.dropReceive i).Queued r :=
  Queued.collect (n := { n with receivers := Function.update n.receivers i (n.receivers i - 1) })
    (h.congr rfl rfl rfl) i

theorem Queued.pollReceive (h : n.Queued r) {i : InboxRc} {ty : TypeId} {clone : Option P}
    (hp : n.pollReceive i ty clone = .ok n') : n'.Queued r := by
  unfold Net.pollReceive at hp
  split at hp
  · cases hp
    exact h
  · rename_i msg msgs hmsgs
    obtain ⟨m, hm, hp⟩ := Except.bind_eq_ok_iff.mp hp
    cases hp
    obtain ⟨h1, h2, h3⟩ := receiveMsg_frame hm
    refine Queued.dropReceive ?_ i
    by_cases hi : i = r
    · subst hi
      have hbuf : m.buffer i = msgs := by rw [h2]; simp
      obtain ⟨hq, hroom⟩ := h
      rw [hmsgs] at hq hroom
      refine ⟨?_, by rw [hbuf]; exact (Nat.le_succ _).trans hroom⟩
      rw [arrivals, h1, h3 i, if_pos rfl, hbuf]
      exact hq.pop
    · exact h.congr h1 (by rw [h3 r, if_neg hi, List.append_nil]; rfl) (by rw [h2]; simp [Ne.symm hi])

theorem Queued.drain (h : n.Queued r) (i : InboxRc) : (n.drain i).Queued r := by
  unfold Net.drain
  split
  · exact h
  · rename_i msg msgs hmsgs
    have h1 : ((n.setBuffer i msgs).lose .nodeRestarted msg).attempts = n.attempts := attempts_lose _ _ _
    have h2 : ((n.setBuffer i msgs).lose .nodeRestarted msg).receipts r = n.receipts r := receipts_lose _ _ _ _
    by_cases hi : i = r
    · subst hi
      have hbuf : ((n.setBuffer i msgs).lose .nodeRestarted msg).buffer i = msgs := by simp
      obtain ⟨hq, hroom⟩ := h
      rw [hmsgs] at hq hroom
      refine ⟨?_, by rw [hbuf]; exact (Nat.le_succ _).trans hroom⟩
      rw [arrivals, h1, h2, hbuf]
      exact hq.lose
    · exact h.congr h1 h2 (by simp [Ne.symm hi])

/-- Every act keeps the inboxes queues. -/
theorem Queued.act (h : n.Queued r) (hR : n.Registry) (ha : Act n n') : n'.Queued r := by
  have quiet : ∀ {m : Net P} (o : NetObs P), m.Queued r → (∀ i now msg into, o ≠ .attempt i now msg into) →
      o.receipt r = none →
      (m.note o).Queued r := fun o hm ho hq => hm.congr (attempts_quiet _ ho) (receipts_quiet _ hq) rfl
  cases ha with
  | newPacket src dst packet level | enqueueError id t dst ty kind hid | receive i hs | dropNet =>
    exact h.congr rfl rfl rfl
  | sent rc now => exact quiet (.sent rc now) h (by rintro _ _ _ _ ⟨⟩) rfl
  | dropPacket rc hh => exact quiet (.unsent rc) (h.congr rfl rfl rfl) (by rintro _ _ _ _ ⟨⟩) rfl
  | enqueuePacket id t rc w hh hp hid =>
    exact quiet (.enqueued rc id) (h.congr rfl rfl rfl) (by rintro _ _ _ _ ⟨⟩) rfl
  | deliver id now d hd => exact h.deliver id now d
  | abortDelivery id d hd =>
    exact h.congr (attempts_lose _ _ _) (receipts_lose _ _ _ _) (by rw [Net.abortDelivery, lose_buffer]; rfl)
  | openSocket key i n' hd ho =>
    unfold Net.openSocket at ho
    split at ho
    · cases ho
    · simp only [Except.ok.injEq, Prod.mk.injEq] at ho
      obtain ⟨rfl, rfl⟩ := ho
      refine h.congr rfl rfl ?_
      by_cases hi : r = n.inboxCount
      · subst hi
        obtain ⟨h1, h2, h3⟩ := hR.fresh n.inboxCount le_rfl
        have h4 : n.pointed n.inboxCount = false := by simp [pointed, h1, h2, h3]
        simp [hR.freed _ h4]
      · simp [hi]
  | dropSocket i sock n' hs hd =>
    unfold Net.dropSocket at hd
    split_ifs at hd
    cases hd
    exact Queued.collect (n := { n with
      inboxes := Function.update n.inboxes sock.key none
      sockets := Function.update n.sockets i none }) (h.congr rfl rfl rfl) i
  | dropReceive i hi => exact h.dropReceive i
  | pollReceive i key clone n' hi hk hp => exact h.pollReceive hp
  | drain i key hk => exact h.drain i

theorem Acts.queued (h : Acts n n') (hR : n.Registry) (hq : n.Queued r) : n'.Queued r := by
  induction h with
  | refl => exact hq
  | tail h' h ih => exact ih.act (Acts.registry h' hR) h

end Net

namespace NetCx

variable {V Q P : Type} [KeyedQueue Q Loc Instant] {f : SendFunction} {b : SimBuilder} {s s' : NetCx V Q P}
  {l : NetLabel V P}

/-! ## Time -/

theorem Linked.now_mono (hL : s.Linked b) (h : NetCx.step f s l = .ok s') : s.now ≤ s'.now := by
  have hB := hL.reach.base
  rw [hL.now_eq, (hL.step h).now_eq]
  rcases (step_next h).clock hB with hn | ⟨order, rfl, hst⟩
  · exact hn.ge
  · rcases (SimCx.step_next hB hst).clock with ⟨-, hn, -⟩ | ⟨dt, hadv⟩
    · exact hn.ge
    · exact (hadv.pos hB).le

/-- The attempts made are in the order of time. -/
structure Timed (s : NetCx V Q P) : Prop where
  sorted : s.net.attempts.Pairwise fun a a' => a.now ≤ a'.now
  past : ∀ a ∈ s.net.attempts, a.now ≤ s.now

theorem Timed.step (hT : s.Timed) (hr : Reachable f b s) (h : step f s l = .ok s') : s'.Timed := by
  have hle := hr.linked.now_mono h
  have keep : s'.net.attempts = s.net.attempts → s'.Timed := fun h0 =>
    ⟨by rw [h0]; exact hT.sorted, fun a ha => (hT.past a (h0 ▸ ha)).trans hle⟩
  cases (step_next h).flight hr.beds with
  | same hin hph hsl hatt | wait i loc hp hl hin hph hsl hatt | enqueue i d hsp hmsg hin hph hsl hatt
  | gone i post c rest hk hin hph hsl hatt => exact keep hatt
  | deliver i d loc hp hl hd hnet hph hsl =>
    have hatt : s'.net.attempts = s.net.attempts ++ [⟨i, s.now, d.msg, s.net.accepts d.key⟩] := by
      rw [hnet, Net.attempts_deliver]
    refine ⟨?_, fun a ha => ?_⟩
    · rw [hatt, List.pairwise_append]
      refine ⟨hT.sorted, List.pairwise_singleton _ _, fun a ha a' ha' => ?_⟩
      rw [List.mem_singleton.mp ha']
      exact hT.past a ha
    · rw [hatt] at ha
      rcases List.mem_append.mp ha with ha | ha
      · exact (hT.past a ha).trans hle
      · rw [List.mem_singleton.mp ha]
        exact hle

theorem Reachable.timed (hr : Reachable f b s) : s.Timed :=
  hr.induct (P := Timed) ⟨.nil, fun a h => by cases h⟩ fun _ _ _ hm hT h => hT.step hm h

theorem Reachable.queued (hr : Reachable f b s) (r : InboxRc) : s.net.Queued r := by
  refine hr.induct (P := fun m => m.net.Queued r) ⟨.nil, Nat.zero_le _⟩ fun m l m' hm hq h => ?_
  have hL := Reachable.linked (b := b) hm
  rcases (step_next h).acts hL with ha | ⟨i, -, hi⟩
  · exact Net.Acts.queued ha hL.registry hq
  · rw [hi]
    exact hq.congr rfl rfl rfl

/-- **Inboxes are bounded queues in the order of time.**  Whatever the send function does: the messages are
put into an inbox in the order of the instants at which they are delivered, never more than 8 of them are in
it, and they are received from it, as far as they are, in the order in which they were put in; what has not
left the inbox is at the end of that order. -/
theorem inbox_in_order (hr : Reachable f b s) (r : InboxRc) :
    (s.net.arrivals r).Pairwise (fun a a' => a.now ≤ a'.now) ∧ (s.net.buffer r).length ≤ Net.capacity ∧
      ∃ past, (s.net.arrivals r).map (·.msg) = past ++ s.net.buffer r ∧ (s.net.receipts r).Sublist past :=
  ⟨hr.timed.sorted.sublist List.filter_sublist, (hr.queued r).room, (hr.queued r).fifo⟩

/-- The packet is delivered, and the root task woken for it. -/
def wokenRun : List (NetLabel ℕ ℕ) :=
  laterRun ++ [.sim (.user (.wake 1)), .sim (.user (.done none)), .delivery 0 0, .delivery 0 0,
    .sim (.user (.done none)), .sim (.run [])]

/-- Two packets, the second sent when the first is there, and delivered five seconds later. -/
def twoRun : List (NetLabel ℕ ℕ) :=
  (openedRun ++ [.user (.send 1 ⟨0, 7⟩ ⟨3, 42⟩ .ofPacket)]) ++
    (wokenRun ++ [.sim (.user (.withSimulator netTy))]) ++
    .user (.send 1 ⟨0, 7⟩ ⟨3, 43⟩ .ofPacket) :: wokenRun

/-- Both are delivered, and the first is received. -/
theorem inbox_in_order_two : ∃ s : NetCx ℕ (SwapArray Loc Instant) ℕ,
    (s.net.arrivals 0).map (·.msg) = [.packet 0, .packet 1] ∧
    (s.net.arrivals 0).Pairwise (fun a a' => a.now ≤ a'.now) ∧ s.net.receipts 0 = [.packet 0] ∧
    s.net.buffer 0 = [.packet 1] ∧
    ∃ past, (s.net.arrivals 0).map (·.msg) = past ++ s.net.buffer 0 ∧ (s.net.receipts 0).Sublist past := by
  obtain ⟨s, hs, hq⟩ : ∃ s : NetCx ℕ (SwapArray Loc Instant) ℕ, Machine.run (step later) (install SimCx.epoch)
      (twoRun ++ [.user (.receive 0), .user (.pollReceive 0 none)]) = .ok s ∧
      ((s.net.arrivals 0).map (·.msg), s.net.receipts 0, s.net.buffer 0) =
        ([.packet 0, .packet 1], [.packet 0], [.packet 1]) := Machine.exists_of_run (by decide +kernel)
  simp only [Prod.mk.injEq] at hq
  obtain ⟨h1, -, h3⟩ := inbox_in_order ⟨_, hs⟩ 0
  exact ⟨s, hq.1, h1, hq.2.1, hq.2.2, h3⟩

/-! ## The order of sending -/

theorem UpTo.mono {D D' : Instant} {ls : List (NetLabel V P)} (h : UpTo f D' s ls) (hD : D ≤ D') : UpTo f D s ls :=
  fun ls₁ ls₂ m hls hm hle => h ls₁ ls₂ m hls hm (hle.trans hD)

theorem UpTo.suffix {D : Instant} {m : NetCx V Q P} {ls₁ ls₂ : List (NetLabel V P)} (h : UpTo f D s (ls₁ ++ ls₂))
    (hm : Machine.run (NetCx.step f) s ls₁ = .ok m) : UpTo f D m ls₂ :=
  fun ls₃ ls₄ k hls hk hle => h (ls₁ ++ ls₃) ls₄ k (by rw [hls, List.append_assoc])
    (Machine.run_append.mpr ⟨m, hm, hk⟩) hle

/-- Of two packets with attempts at one time each, the one with the later time is not put in before the other. -/
theorem Reachable.arrivals_in_order (hr : Reachable f b s) {rc rc' : PacketRc} {t t' : Instant} (hlt : t < t')
    (h : ∀ a ∈ s.net.attemptsOf rc, a.now = t) (h' : ∀ a ∈ s.net.attemptsOf rc', a.now = t') (r : InboxRc) :
    (s.net.arrivals r).Pairwise fun a a' => ¬ (a.msg = .packet rc' ∧ a'.msg = .packet rc) := by
  have hsorted : (s.net.arrivals r).Pairwise fun a a' => a.now ≤ a'.now :=
    hr.timed.sorted.sublist List.filter_sublist
  refine hsorted.imp_of_mem fun {a a'} ha ha' hle hmsg => ?_
  have h1 := h a' (List.mem_filter.mpr ⟨(List.mem_filter.mp ha').1, by simpa using hmsg.2⟩)
  have h2 := h' a (List.mem_filter.mpr ⟨(List.mem_filter.mp ha).1, by simpa using hmsg.1⟩)
  rw [h1, h2] at hle
  exact absurd hle (not_le_of_gt hlt)

/-- Nor is it received before the other. -/
theorem Reachable.received_in_order (hr : Reachable f b s) {rc rc' : PacketRc} {t t' : Instant} (hlt : t < t')
    (h : ∀ a ∈ s.net.attemptsOf rc, a.now = t) (h' : ∀ a ∈ s.net.attemptsOf rc', a.now = t') (r : InboxRc) :
    (s.net.receipts r).Pairwise fun msg msg' => ¬ (msg = .packet rc' ∧ msg' = .packet rc) :=
  LossyFifo.pairwise (hr.queued r).fifo (List.pairwise_map.mpr (hr.arrivals_in_order hlt h h' r))

/-- **`perfect_connectivity` keeps the order of packets sent at different times**: the packet that was sent
later is received from no inbox before the other. -/
theorem received_in_send_order {latency : Duration} {op op' : NetOp P} {dst dst' : Addr}
    {packet packet' : Packet P}
    {level level' : ServiceLevel} {s₁ s₂ s₃ : NetCx V Q P} {ls₁ ls₂ : List (NetLabel V P)}
    (hr : Reachable (.perfectConnectivity latency) b s)
    (hop : Sends dst packet level op) (hst : s.step (.perfectConnectivity latency) (.user op) = .ok s₁)
    (hrun : Machine.run (step (.perfectConnectivity latency)) s₁ ls₁ = .ok s₂) (hlt : s.now < s₂.now)
    (hop' : Sends dst' packet' level' op') (hst' : s₂.step (.perfectConnectivity latency) (.user op') = .ok s₃)
    (hrun' : Machine.run (step (.perfectConnectivity latency)) s₃ ls₂ = .ok s')
    (hup : ∀ t, s₂.now.checkedAdd latency = some t →
      UpTo (.perfectConnectivity latency) t s₁ (ls₁ ++ .user op' :: ls₂)) (r : InboxRc) :
    (s'.net.receipts r).Pairwise fun msg msg' => ¬
    (msg = .packet s₂.net.packetCount ∧ msg' = .packet s.net.packetCount) := by
  have hr₁ : Reachable (.perfectConnectivity latency) b s₁ := hr.tail hst
  have hr₂ : Reachable (.perfectConnectivity latency) b s₂ := hr₁.trans ⟨ls₁, hrun⟩
  have hr' : Reachable (.perfectConnectivity latency) b s' := (hr₂.tail hst').trans ⟨ls₂, hrun'⟩
  obtain ⟨id, t, ht, -, -, htime⟩ := hr.attempts_sent hop hst
  obtain ⟨id', t', ht', -, -, htime'⟩ := hr₂.attempts_sent hop' hst'
  have hadd : t < t' := by
    rw [Timespec.lt_iff] at hlt ⊢
    rw [Timespec.checkedAdd_eq_some ht, Timespec.checkedAdd_eq_some ht']
    omega
  have hup' := hup t' ht'
  have hwhole : Machine.run (step (.perfectConnectivity latency)) s₁ (ls₁ ++ .user op' :: ls₂) = .ok s' :=
    Machine.run_append.mpr ⟨s₂, hrun, Machine.run_cons.mpr ⟨s₃, hst', hrun'⟩⟩
  -- the attempts of the two packets, if they have been made
  have once : ∀ {rc : PacketRc} {u : Instant}, s'.net.attemptsOf rc = [] ∨
      (∃ i into, s'.net.attemptsOf rc = [⟨i, u, .packet rc, into⟩]) →
      ∀ a ∈ s'.net.attemptsOf rc, a.now = u := by
    rintro rc u (h | ⟨i, into, h⟩) a ha
    · rw [h] at ha
      cases ha
    · rw [h] at ha
      rw [List.mem_singleton.mp ha]
  refine hr'.received_in_order hadd (once ?_) (once ?_) r
  · exact (htime _ s' hwhole (hup'.mono hadd.le)).imp And.right fun ⟨_, into, h⟩ => ⟨id, into, h⟩
  · have hsuf : UpTo (.perfectConnectivity latency) t' s₃ ls₂ := by
      have h : UpTo (.perfectConnectivity latency) t' s₁ ((ls₁ ++ [.user op']) ++ ls₂) := by simpa using hup'
      exact h.suffix (Machine.run_append.mpr ⟨s₂, hrun, Machine.run_single.mpr hst'⟩)
    exact (htime' _ s' hrun' hsuf).imp And.right fun ⟨_, into, h⟩ => ⟨id', into, h⟩

/-- After another packet: it is delivered, and both are received. -/
def bothRun : List (NetLabel ℕ ℕ) :=
  wokenRun ++ [.user (.receive 0), .user (.pollReceive 0 none), .user (.receive 0), .user (.pollReceive 0 none)]

def tenSeconds : Instant := ⟨10, 0, by decide, by decide, nanosPerSec_pos⟩

/-- Two packets, the second sent when the first is there; both are received. -/
theorem received_in_send_order_later : ∃ s' :
    NetCx ℕ (SwapArray Loc Instant) ℕ, s'.net.receipts 0 = [.packet 0, .packet 1] ∧
    (s'.net.receipts 0).Pairwise fun msg msg' => ¬ (msg = .packet 1 ∧ msg' = .packet 0) := by
  obtain ⟨s, hs, hq⟩ : ∃ s : NetCx ℕ (SwapArray Loc Instant) ℕ, Machine.run (step later)
      (install SimCx.epoch) openedRun = .ok s ∧
      (s.net.packetCount, decide (s.now < SimCx.fiveSeconds)) = (0, true) :=
        Machine.exists_of_run (by decide +kernel)
  obtain ⟨s₁, hs₁, hq₁⟩ : ∃ s₁ : NetCx ℕ (SwapArray Loc Instant) ℕ, Machine.run (step later) (install SimCx.epoch)
      (openedRun ++ [.user (.send 1 ⟨0, 7⟩ ⟨3, 42⟩ .ofPacket)]) = .ok s₁ ∧
      s₁.upTo later tenSeconds ((wokenRun ++ [.sim (.user (.withSimulator netTy))]) ++
        .user (.send 1 ⟨0, 7⟩ ⟨3, 43⟩ .ofPacket) :: bothRun) = true :=
    Machine.exists_of_run (by decide +kernel)
  obtain ⟨m, h1, h2⟩ := Machine.run_append.mp hs₁
  obtain rfl : m = s := Except.ok.inj (h1.symm.trans hs)
  have hst := Machine.run_single.mp h2
  obtain ⟨s₂, hs₂, hq₂⟩ : ∃ s₂ : NetCx ℕ (SwapArray Loc Instant) ℕ, Machine.run (step later) (install SimCx.epoch)
      ((openedRun ++ [.user (.send 1 ⟨0, 7⟩ ⟨3, 42⟩ .ofPacket)]) ++
        (wokenRun ++ [.sim (.user (.withSimulator netTy))])) = .ok s₂ ∧
      (s₂.net.packetCount, s₂.now, s₂.now.checkedAdd
        (SimCx.fiveSeconds.durationSince (SimCx.clockGettime SimCx.epoch.simulationStartTime))) =
        (1, SimCx.fiveSeconds, some tenSeconds) := Machine.exists_of_run (by decide +kernel)
  obtain ⟨m₁, h3, hrun⟩ := Machine.run_append.mp hs₂
  obtain rfl : m₁ = s₁ := Except.ok.inj (h3.symm.trans hs₁)
  obtain ⟨s', hs', hq'⟩ : ∃ s' : NetCx ℕ (SwapArray Loc Instant) ℕ, Machine.run (step later) (install SimCx.epoch)
      (((openedRun ++ [.user (.send 1 ⟨0, 7⟩ ⟨3, 42⟩ .ofPacket)]) ++
        (wokenRun ++ [.sim (.user (.withSimulator netTy))])) ++
        .user (.send 1 ⟨0, 7⟩ ⟨3, 43⟩ .ofPacket) :: bothRun) = .ok s' ∧
      s'.net.receipts 0 = [.packet 0, .packet 1] := Machine.exists_of_run (by decide +kernel)
  obtain ⟨m₂, h4, h5⟩ := Machine.run_append.mp hs'
  obtain rfl : m₂ = s₂ := Except.ok.inj (h4.symm.trans hs₂)
  obtain ⟨s₃, hst', hrun'⟩ := Machine.run_cons.mp h5
  simp only [Prod.mk.injEq, decide_eq_true_eq] at hq hq₂
  have h := received_in_send_order ⟨_, hs⟩ (.send 1) hst hrun (by rw [hq₂.2.1]; exact hq.2) (.send 1) hst' hrun'
    (fun t ht => by
      obtain rfl := Option.some.inj (ht.symm.trans hq₂.2.2)
      exact .of_upTo hq₁) 0
  rw [hq.1, hq₂.1] at h
  exact ⟨s', hq', h⟩

end NetCx

end Refault
