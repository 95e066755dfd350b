import Refault.NetStep

/-!
# Refault.Packets — where a packet is

A packet that is not cloned is in one place in every state of a run (`Net.Kept`), and the inbox or the
delivery that has it is one for its address and type (`Net.Typed`).  `Loses` says what must be the case when a
packet gets lost, for every cause. That a node is created costs no packet: while `create_node` runs, the
inboxes of its node are empty (`Bare`).
-/

namespace Refault

namespace Net

variable {P : Type} {n n' : Net P} {rc : PacketRc}

/-! ## Receiving -/

/-- No receiver was handed a clone. -/
def Whole (n : Net P) (rc : PacketRc) : Prop :=
  ∀ r value src cloned, .received r rc value src cloned ∈ n.log → cloned = false

theorem Whole.keep (hW : n.Whole rc) (h : ∀ r value src cloned, .received r rc value src cloned ∈ n'.log →
    .received r rc value src cloned ∈ n.log) : n'.Whole rc :=
  fun r value src cloned hm => hW r value src cloned (h r value src cloned hm)

theorem Whole.note (hW : n.Whole rc) {o : NetObs P}
    (ho : ∀ r value src cloned, o ≠ .received r rc value src cloned) : (n.note o).Whole rc :=
  hW.keep fun r value src cloned hm => mem_note hm (Ne.symm (ho r value src cloned))

theorem Whole.lose (hW : n.Whole rc) (cause : LostCause) (msg : Msg) : (n.lose cause msg).Whole rc :=
  hW.keep fun _ _ _ _ hm => mem_lose hm (by simp)

theorem Whole.collect (hW : n.Whole rc) (r : InboxRc) : (n.collect r).Whole rc := by
  rw [collect_eq]
  split
  · exact hW
  · have key : ∀ (msgs : List Msg) (n : Net P), n.Whole rc →
      (msgs.foldl (fun n msg => n.lose .inboxFreed msg) n).Whole rc := by
      intro msgs
      induction msgs with
      | nil => exact fun _ h => h
      | cons msg msgs ih => exact fun n h => ih _ (h.lose _ msg)
    exact key _ _ hW

/-- In an inbox there is the only pointer to the packet. -/
theorem Kept.strong_buffered (hK : n.Kept rc) {r : InboxRc} (h : .packet rc ∈ n.buffer r) : n.strong rc = 1 := by
  have hpos : 0 < n.row rc (.buffered r) := List.count_pos_iff.mpr h
  have hlt : rc < n.packetCount := by
    by_contra hle
    rw [(hK.none (Nat.le_of_not_lt hle)).1] at hpos
    exact Nat.lt_irrefl 0 hpos
  obtain ⟨pl, hpl⟩ := hK.one hlt
  obtain rfl := hpl.row.eq_of_pos hpos
  exact hpl.strong

theorem receiveMsg_packet {r : InboxRc} {ty : TypeId} {clone : Option P} {w : WrappedPacket P}
    (hw : n.packets rc = some w)
    (hty : w.packet.ty = ty) (hs : n.strong rc = 1) : n.receiveMsg r ty clone (.packet rc) =
      .ok ((n.release rc).note (.received r rc w.packet.value w.header.src false)) := by
  simp only [Net.receiveMsg, hw, hty, if_true, unwrapPacket, hs]
  rfl

/-- **No panic**: the future of `receive` gets the packet itself. -/
theorem Kept.pollReceive_ok (hK : n.Kept rc) (hT : n.Typed) (clone : Option P) {r : InboxRc} {key : Key}
    {msgs : List Msg}
    (hk : n.created r = some key) (hb : n.buffer r = .packet rc :: msgs) : ∃ w, n.packets rc = some w ∧
      key = (w.header.dst, w.packet.ty) ∧ n.pollReceive r key.2 clone =
        .ok ((((n.setBuffer r msgs).release rc).note
          (.received r rc w.packet.value w.header.src false)).dropReceive r) := by
  have hm : .packet rc ∈ n.buffer r := by rw [hb]; exact List.mem_cons_self
  obtain ⟨key', hk', hf⟩ := hT.buffered r _ hm
  obtain rfl : key = key' := Option.some.inj (hk.symm.trans hk')
  obtain ⟨w, hw, hkey⟩ := hf rc rfl
  have hty : key = (w.header.dst, w.packet.ty) := by rw [hkey, hT.header rc w hw]
  refine ⟨w, hw, hty, ?_⟩
  unfold Net.pollReceive
  rw [hb]
  simp only
  rw [receiveMsg_packet (n := n.setBuffer r msgs) hw (by rw [hty]) (hK.strong_buffered hm)]
  rfl

theorem Whole.pollReceive (hW : n.Whole rc) (hK : n.Kept rc) (hT : n.Typed) {r : InboxRc} {key : Key}
    {clone : Option P}
    (hk : n.created r = some key) (h : n.pollReceive r key.2 clone = .ok n') : n'.Whole rc := by
  cases hb : n.buffer r with
  | nil =>
    simp only [Net.pollReceive, hb] at h
    cases h
    exact hW
  | cons msg msgs =>
    by_cases hmsg : msg = .packet rc
    · subst hmsg
      obtain ⟨w, -, -, hok⟩ := hK.pollReceive_ok hT clone hk hb
      rw [hok] at h
      cases h
      refine Whole.collect (fun r' value src cloned hm => ?_) r
      rcases List.mem_append.mp hm with hm | hm
      · exact hW r' value src cloned hm
      · cases List.mem_singleton.mp hm
        rfl
    · simp only [Net.pollReceive, hb] at h
      obtain ⟨m, hm, h⟩ := Except.bind_eq_ok_iff.mp h
      cases h
      have h1 : m.Whole rc := by
        cases msg with
        | error kind =>
          cases hm
          exact Whole.note (n := n.setBuffer r msgs) hW (by simp)
        | packet i =>
          simp only [Net.receiveMsg] at hm
          split at hm
          · cases hm
          · split_ifs at hm
            obtain ⟨⟨value, cloned⟩, -, hm⟩ := Except.bind_eq_ok_iff.mp hm
            cases hm
            have hi : i ≠ rc := fun h0 => hmsg (h0 ▸ rfl)
            exact Whole.note (n := (n.setBuffer r msgs).release i) hW (by simp [hi])
      exact Whole.collect (by exact h1) r

theorem Whole.act (hW : n.Whole rc) (hK : n.Kept rc) (hT : n.Typed) (h : Act n n') : n'.Whole rc := by
  cases h with
  | newPacket src dst packet level => exact hW
  | sent i now => exact hW.note (by simp)
  | dropPacket i h => exact Whole.note (n := (n.letGo i).release i) hW (by simp)
  | enqueuePacket id t i w h hp hid =>
    exact Whole.note (n := (n.letGo i).enqueue id t (w.header.dst, w.header.ty) (.packet i)) hW (by simp)
  | enqueueError id t dst ty kind hid => exact hW
  | deliver id now d h =>
    have h0 : ((n.land id).note (.attempt id now d.msg (n.accepts d.key))).Whole rc :=
      Whole.note (n := n.land id) hW (by simp)
    unfold Net.deliver
    dsimp only
    split
    · exact h0.lose _ _
    · split_ifs
      · exact h0
      · exact h0.lose _ _
  | abortDelivery id d h => exact Whole.lose (n := n.land id) hW _ _
  | openSocket key r n' hd h =>
    unfold Net.openSocket at h
    split at h
    · cases h
    · simp only [Except.ok.injEq, Prod.mk.injEq] at h
      obtain ⟨rfl, rfl⟩ := h
      exact hW
  | dropSocket r sock n' hs h =>
    unfold Net.dropSocket at h
    split_ifs at h
    cases h
    exact Whole.collect (by exact hW) r
  | receive r h => exact hW
  | dropReceive r h => exact Whole.collect (by exact hW) r
  | pollReceive r key clone n' h hk hp => exact hW.pollReceive hK hT hk hp
  | drain r key h =>
    unfold Net.drain
    split
    · exact hW
    · exact Whole.lose (n := n.setBuffer r _) hW _ _
  | dropNet => exact hW

/-- Only `PacketRc::new` makes a packet. -/
theorem Act.packets (h : Act n n') : n'.packets = n.packets ∧ n'.packetCount = n.packetCount ∨
    ∃ src dst packet level, n' = (n.newPacket src dst packet level).2 := by
  cases h with
  | newPacket src dst packet level => exact Or.inr ⟨src, dst, packet, level, rfl⟩
  | deliver id now d h =>
    refine Or.inl ?_
    unfold Net.deliver
    dsimp only
    split
    · exact ⟨lose_packets _ _ _, lose_packetCount _ _ _⟩
    · split_ifs
      · exact ⟨rfl, rfl⟩
      · exact ⟨lose_packets _ _ _, lose_packetCount _ _ _⟩
  | abortDelivery id d h => exact Or.inl ⟨lose_packets _ _ _, lose_packetCount _ _ _⟩
  | openSocket key r n' hd h =>
    unfold Net.openSocket at h
    split at h
    · cases h
    · simp only [Except.ok.injEq, Prod.mk.injEq] at h
      obtain ⟨rfl, rfl⟩ := h
      exact Or.inl ⟨rfl, rfl⟩
  | dropSocket r sock n' hs h =>
    unfold Net.dropSocket at h
    split_ifs at h
    cases h
    exact Or.inl ⟨collect_packets _ _, collect_packetCount _ _⟩
  | dropReceive r h => exact Or.inl ⟨collect_packets _ _, collect_packetCount _ _⟩
  | pollReceive r key clone n' h hk hp =>
    exact Or.inl ⟨NetCx.pollReceive_frame (·.packets) (fun _ _ => rfl) (fun _ _ _ => rfl) (fun _ _ => rfl)
      (fun _ => collect_packets _ _) hp,
      NetCx.pollReceive_frame (·.packetCount) (fun _ _ => rfl) (fun _ _ _ => rfl) (fun _ _ => rfl)
        (fun _ => collect_packetCount _ _) hp⟩
  | drain r key h =>
    refine Or.inl ?_
    unfold Net.drain
    split
    · exact ⟨rfl, rfl⟩
    · exact ⟨lose_packets _ _ _, lose_packetCount _ _ _⟩
  | _ => exact Or.inl ⟨rfl, rfl⟩

/-- What is known of a packet that is not cloned. -/
structure Tracked (n : Net P) (rc : PacketRc) : Prop where
  kept : n.Kept rc
  whole : n.Whole rc
  made : rc < n.packetCount → n.packets rc ≠ none

theorem Tracked.act (hK : n.Tracked rc) (hR : n.Registry) (hT : n.Typed) (h : Act n n') : n'.Tracked rc := by
  refine ⟨hK.kept.act hR h, hK.whole.act hK.kept hT h, ?_⟩
  rcases h.packets with ⟨h1, h2⟩ | ⟨src, dst, packet, level, rfl⟩
  · rw [h1, h2]
    exact hK.made
  · intro hlt
    by_cases hrc : rc = n.packetCount
    · subst hrc
      simp [Net.newPacket]
    · have := hK.made (Nat.lt_of_le_of_ne (Nat.le_of_lt_succ hlt) hrc)
      simpa [Net.newPacket, hrc] using this

theorem Acts.tracked (h : Acts n n') (hR : n.Registry) (hT : n.Typed) (hK : n.Tracked rc) : n'.Tracked rc := by
  induction h with
  | refl => exact hK
  | tail h' h ih => exact ih.act (Acts.registry h' hR) (Acts.typed h' hR hT) h

theorem Tracked.clonePacket (hK : n.Tracked rc) {i : PacketRc} (hi : rc ≠ i) : (n.clonePacket i).Tracked rc :=
  ⟨hK.kept.clonePacket hi, hK.whole, hK.made⟩

theorem tracked_new (rc : PacketRc) : (Net.new : Net P).Tracked rc :=
  ⟨kept_new rc, fun _ _ _ _ h => by simp [Net.new] at h, fun h => absurd h (Nat.not_lt_zero rc)⟩

/-! ## Losing a packet -/

section Lost

variable {cause : LostCause} {r : InboxRc}

theorem lost_deliver {id : Id} {now : Instant} {d : Delivery}
    (h : (n.deliver id now d).row rc (.lost cause) ≠ n.row rc (.lost cause)) : d.msg = .packet rc ∧
      (cause = .noSocket ∧ n.inboxes d.key = none ∨
        cause = .bufferFull ∧ ∃ r, n.inboxes d.key = some r ∧ capacity ≤ (n.buffer r).length) := by
  have h0 : ∀ c msg, (((n.land id).note (.attempt id now d.msg (n.accepts d.key))).lose c msg).row rc
      (.lost cause) = n.row rc (.lost cause) + if msg = .packet rc ∧ cause = c then 1 else 0 := by
    intro c msg
    rw [row_lose, row_note_attempt, row_land]
    simp
  unfold Net.deliver at h
  dsimp only at h
  split at h
  · rename_i hi
    rw [h0] at h
    by_cases hc : d.msg = .packet rc ∧ cause = .noSocket
    · exact ⟨hc.1, Or.inl ⟨hc.2, hi⟩⟩
    · simp [hc] at h
  · rename_i r hi
    split_ifs at h with hlen
    · refine absurd ?_ h
      rw [row_setBuffer, row_note_attempt, row_land]
      simp
    · rw [h0] at h
      by_cases hc : d.msg = .packet rc ∧ cause = .bufferFull
      · exact ⟨hc.1, Or.inr ⟨hc.2, r, hi, Nat.le_of_not_lt hlen⟩⟩
      · simp [hc] at h

theorem lost_collect (h : (n.collect r).row rc (.lost cause) ≠ n.row rc (.lost cause)) :
    cause = .inboxFreed ∧ .packet rc ∈ n.buffer r ∧ n.pointed r = false := by
  rw [collect_eq] at h
  split at h
  · exact absurd rfl h
  · rename_i hp
    rw [row_spill] at h
    by_cases hc : cause = .inboxFreed
    · refine ⟨hc, ?_, by simpa using hp⟩
      by_contra hm
      simp [List.count_eq_zero.mpr hm] at h
    · simp [hc] at h

theorem lost_drain (h : (n.drain r).row rc (.lost cause) ≠ n.row rc (.lost cause)) :
    cause = .nodeRestarted ∧ .packet rc ∈ n.buffer r := by
  unfold Net.drain at h
  split at h
  · exact absurd rfl h
  · rename_i msg msgs hb
    rw [row_lose, row_setBuffer] at h
    by_cases hc : msg = .packet rc ∧ cause = .nodeRestarted
    · exact ⟨hc.2, by rw [hb, hc.1]; exact List.mem_cons_self⟩
    · simp [hc] at h

theorem lost_abort {id : Id} {d : Delivery}
    (h : (n.abortDelivery id d).row rc (.lost cause) ≠ n.row rc (.lost cause)) :
    cause = .deliveryAborted ∧ d.msg = .packet rc := by
  unfold Net.abortDelivery at h
  rw [row_lose, row_land] at h
  by_cases hc : d.msg = .packet rc ∧ cause = .deliveryAborted
  · exact ⟨hc.2, hc.1⟩
  · simp [hc] at h

theorem lost_pollReceive {ty : TypeId} {clone : Option P} (hp : n.pollReceive r ty clone = .ok n')
    (h : n'.row rc (.lost cause) ≠ n.row rc (.lost cause)) :
    cause = .inboxFreed ∧ .packet rc ∈ n.buffer r ∧ n'.sockets r = none ∧ n'.receivers r = 0 := by
  cases hb : n.buffer r with
  | nil =>
    simp only [Net.pollReceive, hb] at hp
    cases hp
    exact absurd rfl h
  | cons msg msgs =>
    simp only [Net.pollReceive, hb] at hp
    obtain ⟨m, hm, hp⟩ := Except.bind_eq_ok_iff.mp hp
    cases hp
    have hrow : m.row rc (.lost cause) = n.row rc (.lost cause) ∧ m.buffer r = msgs := by
      cases msg with
      | error kind =>
        cases hm
        refine ⟨?_, by simp⟩
        simp [row, List.countP_append, NetObs.isLost]
      | packet i =>
        simp only [Net.receiveMsg] at hm
        split at hm
        · cases hm
        · split_ifs at hm
          obtain ⟨⟨value, cloned⟩, -, hm⟩ := Except.bind_eq_ok_iff.mp hm
          cases hm
          refine ⟨?_, by simp⟩
          simp [row, List.countP_append, NetObs.isLost]
    obtain ⟨h1, h2, h3⟩ :=
      lost_collect (n := { m with receivers := Function.update m.receivers r (m.receivers r - 1) })
      (fun h0 => h (h0.trans hrow.1))
    rw [pointed_eq_false] at h3
    refine ⟨h1, List.mem_cons_of_mem _ (hrow.2 ▸ h2), ?_, ?_⟩
    · simpa [Net.dropReceive] using h3.1
    · simpa [Net.dropReceive] using h3.2.1

end Lost

end Net

namespace SimCx

variable {V Q : Type} [KeyedQueue Q Loc Instant] {b : SimBuilder} {s s' : SimCx V Q} {l : Label V}

/-- The current node, and those that the frames go back to, exist. -/
def Seated (n : ℕ) : NodeId → List (Frame V) → Prop
  | cur, [] => cur < n
  | cur, f :: rest => cur < n ∧ Seated n (f.below cur) rest

omit [KeyedQueue Q Loc Instant] in
theorem Seated.lt {n : ℕ} {cur : NodeId} {stack : List (Frame V)} (h : Seated n cur stack) : cur < n := by
  cases stack with
  | nil => exact h
  | cons f rest => exact h.1

omit [KeyedQueue Q Loc Instant] in
theorem Seated.mono {n n' : ℕ} (hn : n ≤ n') {cur : NodeId} {stack : List (Frame V)} (h : Seated n cur stack) :
    Seated n' cur stack := by
  induction stack generalizing cur with
  | nil => exact h.trans_le hn
  | cons f rest ih => exact ⟨h.1.trans_le hn, ih h.2⟩

theorem Next.seated (h : Next s l s') (hB : s.Base) (hS : Seated s.ex.nodes.length s.currentNode s.stack) :
    Seated s'.ex.nodes.length s'.currentNode s'.stack := by
  have hle := (h.turn hB).length_le
  have hcur := hS.lt.trans_le hle
  have hS' := hS.mono hle
  have hnode : ∀ {n : NodeId} {nd : NodeData}, s.ex.nodes[n]? = some nd → n < s'.ex.nodes.length := fun hn =>
    (List.getElem?_eq_some_iff.mp hn).1.trans_le hle
  cases h with
  | abort id hu hc hl hp => exact ⟨(hB.exec.node_lt id fun h0 => by rw [h0] at hl; cases hl).trans_le hle, hS'⟩
  | stop node order nd hu hc hn hrun hnd ho => exact ⟨hnode hn, hS'⟩
  | start node hu hc hrun =>
    obtain ⟨nd, hn, -⟩ := Option.map_eq_some_iff.mp hrun
    exact ⟨hnode hn, hS'⟩
  | createNode hu hc hf => exact ⟨by simp, hS'⟩
  | stopSimulation hu hc => exact ⟨hcur, hS'⟩
  | withSimulator ty i sim hu hc hs => exact ⟨hcur, hS'⟩
  | poll order rest id q hk hc hf hq hs hr =>
    refine ⟨(hB.exec.node_lt id fun h0 => by rw [h0] at hs; cases hs).trans_le hle, ?_⟩
    rw [hk] at hS'
    exact hS'
  | stopAllRun order node nodes rest nd hk hc hn hrun hnd ho =>
    rw [hk] at hS'
    exact ⟨hnode hn, hS'⟩
  | pollDropped l caller rest id r e hk hc hr hd he ha hr' hf =>
    rcases hk with ⟨hk, -⟩ | ⟨v, order, hk, -⟩ <;> rw [hk] at hS' <;> exact hS'
  | putBack r i sim rest hk hc hs =>
    rcases hk with hk | hk <;> rw [hk] at hS' <;> exact hS'.2
  | doneInit r rest id hk | exhausted order rest hk | stopNext order id ids caller rest e hk
  | stopSims order caller rest hk
  | stopAllSkip order node nodes rest nd hk | taken order time rest hk =>
    rw [hk] at hS'
    exact hS'
  | doneWaker r rest hk | doneDropSim r rest hk | wakeDone order rest hk | stopAllDone order rest hk
  | pollKept caller rest id hk | doneDiscard r id post caller rest hk | simsDone order cb len caller rest hk =>
    rw [hk] at hS'
    exact hS'.2
  | rootReady v caller rest id hk | advance order rest loc next time hk | wakeCustom order rest loc t n q hk
  | stopDrop order id ids caller rest hk | simsNext order cb len i idx caller rest sim hk | destroy order rest hk
  | dropSim order time rest sim hk =>
    rw [hk] at hS'
    exact ⟨hcur, hS'⟩
  | _ => exact hS'

theorem Reachable.current_lt (hr : Reachable b s) : s.currentNode < s.ex.nodes.length :=
  Seated.lt (hr.invariant (I := fun s => Seated s.ex.nodes.length s.currentNode s.stack)
    (by simp [install, Exec.new, Seated, Frame.below, initNode]) fun _ _ _ hB hS h => h.seated hB hS)

end SimCx

namespace NetCx

variable {V Q P : Type} [KeyedQueue Q Loc Instant] {f : SendFunction} {b : SimBuilder} {s s' : NetCx V Q P}
  {l : NetLabel V P}

/-! ## While a node is created -/

/-- A future of `enqueue` is being polled. -/
def Polled (s : NetCx V Q P) (l : NetLabel V P) : Prop :=
  (∃ caller rest, s.sim.stack = .poll caller :: rest) ∧ ∃ loc v, l = .delivery loc v

omit [KeyedQueue Q Loc Instant] in
theorem deliver_created (n : Net P) (id : Id) (now : Instant)
    (d : Delivery) : (n.deliver id now d).created = n.created := by
  unfold Net.deliver
  dsimp only
  split
  · exact Net.lose_created _ _ _
  · split_ifs
    · rfl
    · exact Net.lose_created _ _ _

/-- An inbox is created on the current node, and it is empty. -/
theorem Next.created (h : Next f s l s') {r : InboxRc} {key : Key} (hk : s'.net.created r = some key) :
    s.net.created r = some key ∨ key.1.node = s.sim.currentNode ∧ s'.net.buffer r = [] := by
  have keep : s'.net.created = s.net.created → s.net.created r = some key ∨ key.1.node = s.sim.currentNode ∧
      s'.net.buffer r = [] := fun h0 => Or.inl (h0 ▸ hk)
  cases h with
  | openSocket port ty owner r' net hu hn ho h =>
    unfold Net.openSocket at h
    split at h
    · cases h
    · simp only [Except.ok.injEq, Prod.mk.injEq] at h
      obtain ⟨rfl, rfl⟩ := h
      by_cases hr : r = s.net.inboxCount
      · subst hr
        simp only [Function.update_self, Option.some.injEq] at hk
        subst hk
        exact Or.inr ⟨rfl, by simp⟩
      · exact Or.inl (by simpa [hr] using hk)
  | dropSocket r' sock net hu hn hs h =>
    unfold Net.dropSocket at h
    split_ifs at h
    cases h
    exact keep (Net.collect_created _ _)
  | pollReceive r' clone key net hu hk' h0 h =>
      exact keep (pollReceive_frame (·.created) (fun _ _ => rfl) (fun _ _ _ => rfl) (fun _ _ => rfl)
        (fun _ => Net.collect_created _ _) h)
  | dropReceive r' hu h0 => exact keep (Net.collect_created _ _)
  | drain r' key hs hk' hc hn =>
    refine keep ?_
    unfold Net.drain
    split
    · rfl
    · exact Net.lose_created _ _ _
  | firstPoll loc v caller rest t d sim₁ sim₂ _ hk' hr hp hd h1 h2 h =>
    rcases h with h | h
    · exact keep (by rw [h.net])
    · exact keep (by rw [h.net]; exact deliver_created ..)
  | nextPoll l loc v caller rest t d sim₂ _ hk' hr hp hd h2 h =>
    rcases h with h | h
    · exact keep (by rw [h.net])
    · exact keep (by rw [h.net]; exact deliver_created ..)
  | discard l v id post caller rest ph _ hk' hp hph h
  | discardSleep l loc v id post caller rest sim _ hk' hp hst h =>
    refine keep ?_
    rw [h]
    dsimp only
    split
    · rfl
    · exact Net.lose_created _ _ _
  | _ => exact keep rfl

/-- Only a delivery puts a message into an inbox. -/
theorem Next.empty (h : Next f s l s') (hp : ¬ s.Polled l) {r : InboxRc} (hb : s.net.buffer r = []) :
    s'.net.buffer r = [] := by
  have hcollect : ∀ {n : Net P} {r' : InboxRc}, n.buffer r = [] → (n.collect r').buffer r = [] := fun h0 => by
    rw [Net.collect_buffer, h0, ite_self]
  cases h with
  | openSocket port ty owner r' net hu hn ho h =>
    unfold Net.openSocket at h
    split at h
    · cases h
    · simp only [Except.ok.injEq, Prod.mk.injEq] at h
      obtain ⟨rfl, rfl⟩ := h
      by_cases hr : r = s.net.inboxCount
      · subst hr; simp
      · simpa [hr] using hb
  | dropSocket r' sock net hu hn hs h =>
    unfold Net.dropSocket at h
    split_ifs at h
    cases h
    exact hcollect hb
  | pollReceive r' clone key net hu hk h0 h =>
    unfold Net.pollReceive at h
    split at h
    · cases h; exact hb
    · rename_i msg msgs hmsgs
      obtain ⟨m, hm, h⟩ := Except.bind_eq_ok_iff.mp h
      cases h
      have hr : r ≠ r' := by rintro rfl; rw [hb] at hmsgs; cases hmsgs
      refine hcollect ?_
      cases msg with
      | error kind => cases hm; simpa [hr] using hb
      | packet rc =>
        simp only [Net.receiveMsg] at hm
        split at hm
        · cases hm
        · split_ifs at hm
          obtain ⟨⟨value, cloned⟩, -, hm⟩ := Except.bind_eq_ok_iff.mp hm
          cases hm
          simpa [hr] using hb
  | dropReceive r' hu h0 => exact hcollect hb
  | drain r' key hs hk hc hn =>
    unfold Net.drain
    split
    · exact hb
    · rename_i msg msgs hmsgs
      have hr : r ≠ r' := by rintro rfl; rw [hb] at hmsgs; cases hmsgs
      simpa [hr] using hb
  | firstPoll loc v caller rest t d sim₁ sim₂ _ hk => exact absurd ⟨⟨caller, rest, hk⟩, loc, v, rfl⟩ hp
  | nextPoll l loc v caller rest t d sim₂ _ hk => exact absurd ⟨⟨caller, rest, hk⟩, l, v, rfl⟩ hp
  | discard l v id post caller rest ph _ hk hp hph h
  | discardSleep l loc v id post caller rest sim _ hk hp hst h =>
    rw [h]
    dsimp only
    split
    · exact hb
    · simpa [Net.abortDelivery] using hb
  | _ => exact hb

/-- Inboxes are created on nodes that exist. -/
def Placed (s : NetCx V Q P) : Prop := ∀ r key, s.net.created r = some key → key.1.node < s.sim.ex.nodes.length

theorem nodes_steps {sim sim' : SimCx V Q} (hB : sim.Base) (h : Machine.Steps SimCx.step sim sim') :
    sim.ex.nodes.length ≤ sim'.ex.nodes.length :=
  h.inv_of (J := SimCx.Base) (I := fun m => sim.ex.nodes.length ≤ m.ex.nodes.length) (fun _ _ _ => SimCx.step_base)
    (fun _ _ _ hB hle h => hle.trans ((SimCx.step_next hB h).turn hB).length_le) hB le_rfl

theorem Placed.step (hP : s.Placed) (hL : s.Linked b) (h : step f s l = .ok s') : s'.Placed := by
  intro r key hk
  have hn := step_next h
  have hle := nodes_steps hL.reach.base hn.sim_steps
  rcases hn.created hk with h0 | ⟨h0, -⟩
  · exact (hP r key h0).trans_le hle
  · rw [h0]
    exact hL.reach.current_lt.trans_le hle

/-- A creation in progress was so before a run, or it is of a node that the run has added. -/
theorem creating_steps {sim sim' : SimCx V Q} (hB : sim.Base) (h : Machine.Steps SimCx.step sim sim') {rd : Round}
    (hr : rd ∈ sim'.rounds) {idx : List ℕ} (hp : rd.phase = .calling .create idx) :
    (∃ r₀ ∈ sim.rounds, r₀.node = rd.node ∧ ∃ idx₀, r₀.phase = .calling .create idx₀) ∨
    sim.ex.nodes.length ≤ rd.node := by
  refine h.induct (P := fun m => ∀ rd ∈ m.rounds, ∀ idx, rd.phase = .calling .create idx →
    (∃ r₀ ∈ sim.rounds, r₀.node = rd.node ∧ ∃ idx₀, r₀.phase = .calling .create idx₀) ∨
      sim.ex.nodes.length ≤ rd.node)
    (fun rd hr idx hp => Or.inl ⟨rd, hr, rfl, idx, hp⟩) (fun m l m' hm hI hst rd hr idx hp => ?_) rd hr idx hp
  have hmB := hB.steps hm
  rcases ((SimCx.step_next hmB hst).turn hmB).creating hr hp with ⟨r₀, h0, h1, idx₀, h2⟩ | ⟨h1, -⟩
  · rw [← h1]
    exact hI r₀ h0 idx₀ h2
  · rw [h1]
    exact Or.inr (nodes_steps hB hm)

omit [KeyedQueue Q Loc Instant] in
theorem poll_rest {c : CxCell} {r : Bool} {caller : NodeId} {rest : List (Frame V)}
    (h : Shape c r (.poll caller :: rest)) : rest = [.loop] := by
  cases h with
  | free h => exact h.poll_eq.1

/-- No round is in progress under a poll. -/
theorem rounds_polled (hB : s.sim.Base) (hp : s.Polled l) : s.sim.rounds = [] := by
  obtain ⟨⟨caller, rest, hk⟩, -⟩ := hp
  have hS := hB.shape
  rw [hk] at hS
  obtain rfl := poll_rest hS
  simp [SimCx.rounds, hk, Frame.phase]

/-- While `create_node` runs, the inboxes of its node are empty. -/
def Bare (s : NetCx V Q P) : Prop :=
  ∀ rd ∈ s.sim.rounds, ∀ idx, rd.phase = .calling .create idx → ∀ r key, s.net.created r = some key →
    key.1.node = rd.node → s.net.buffer r = []

theorem Bare.step (hb : s.Bare) (hP : s.Placed) (hL : s.Linked b) (h : step f s l = .ok s') : s'.Bare := by
  intro rd hr idx hp r key hk hnode
  have hn := step_next h
  have hB := hL.reach.base
  rcases creating_steps hB hn.sim_steps hr hp with ⟨r₀, h0, h1, idx₀, h2⟩ | hle
  · rcases hn.created hk with hk0 | ⟨-, hk0⟩
    · refine hn.empty (fun hpoll => ?_) (hb r₀ h0 idx₀ h2 r key hk0 (hnode.trans h1.symm))
      rw [rounds_polled hB hpoll] at h0
      cases h0
    · exact hk0
  · have hlt : key.1.node < s.sim.ex.nodes.length := by
      rcases hn.created hk with hk0 | ⟨hk0, -⟩
      · exact hP r key hk0
      · rw [hk0]
        exact hL.reach.current_lt
    exact absurd (hnode ▸ hlt) (Nat.not_lt_of_le hle)

theorem Reachable.placed (hr : Reachable f b s) : s.Placed :=
  Machine.Steps.inv_of (J := (Linked b ·)) (fun _ _ _ hL h => hL.step h) (fun _ _ _ hL hP h => hP.step hL h) hr
    (linked_install b) fun _ _ h => by cases h

theorem Reachable.bare (hr : Reachable f b s) : s.Bare :=
  Machine.Steps.inv_of (J := (Reachable f b ·)) (fun _ _ _ hr h => hr.tail h)
    (fun _ _ _ hr hb h => hb.step hr.placed hr.linked h) hr ⟨[], rfl⟩
    fun rd hr => by simp [install, SimCx.rounds, SimCx.install, Frame.phase] at hr

/-! ## Losses -/

/-- What is the case when, with a step, the packet gets lost for a cause. -/
inductive Loses (s s' : NetCx V Q P) (rc : PacketRc) : NetLabel V P → LostCause → Prop
  | noSocket (loc : Loc) (v : V) (id : Id) (d : Delivery) (hp : s.sim.ex.polling = some id)
      (hd : s.net.inFlight id = some d) (hm : d.msg = .packet rc) (hi : s.net.inboxes d.key = none) :
      Loses s s' rc (.delivery loc v) .noSocket
  | bufferFull (loc : Loc) (v : V) (id : Id) (d : Delivery) (r : InboxRc) (hp : s.sim.ex.polling = some id)
      (hd : s.net.inFlight id = some d) (hm : d.msg = .packet rc) (hi : s.net.inboxes d.key = some r)
      (hb : Net.capacity ≤ (s.net.buffer r).length) : Loses s s' rc (.delivery loc v) .bufferFull
  | inboxFreed (op : NetOp P) (r : InboxRc) (hm : .packet rc ∈ s.net.buffer r) (hs : s'.net.sockets r = none)
      (hr : s'.net.receivers r = 0) : Loses s s' rc (.user op) .inboxFreed
  | nodeRestarted (r : InboxRc) (key : Key) (i len c : ℕ) (idx : List ℕ) (rest : List (Frame V))
      (hm : .packet rc ∈ s.net.buffer r) (hk : s.net.inboxes key = some r) (hn : key.1.node = s.sim.currentNode)
      (hs : s.sim.stack = .callback i netTy :: .sims .start len idx c :: rest) :
        Loses s s' rc (.drain r) .nodeRestarted
  | deliveryAborted (loc : Loc) (v : V) (id : Id) (post : Bool) (c : NodeId) (rest : List (Frame V)) (d : Delivery)
      (hs : s.sim.stack = .discard id post c :: rest) (hd : s.net.inFlight id = some d) (hm : d.msg = .packet rc) :
      Loses s s' rc (.delivery loc v) .deliveryAborted

omit [KeyedQueue Q Loc Instant] in
/-- The callback of `Net` for a start or a creation. -/
theorem inStartNode_stack (h : s.inStartNode = true) : ∃ i cb len idx c rest, cb ≠ .stop ∧
    s.sim.stack = .callback i netTy :: .sims cb len idx c :: rest := by
  unfold inStartNode at h
  split at h
  · rename_i i ty cb len idx c rest hk
    rw [Bool.and_eq_true] at h
    obtain rfl : ty = netTy := by simpa using h.1
    exact ⟨i, cb, len, idx, c, rest, by simpa using h.2, hk⟩
  · cases h

/-- **Causes**: a packet is lost only as its cause says. -/
theorem Next.lost (h : Next f s l s') (hr : Reachable f b s) {rc : PacketRc} {cause : LostCause}
    (hne : s'.net.row rc (.lost cause) ≠ s.net.row rc (.lost cause)) : Loses s s' rc l cause := by
  have hnote : ∀ {n : Net P} {o : NetObs P}, o.isLost rc cause = false →
      (n.note o).row rc (.lost cause) = n.row rc (.lost cause) := by
    intro n o ho
    simp [Net.row, List.countP_append, ho]
  have deliver : ∀ {loc : Loc} {v : V} {t : Task} {d : Delivery} {now : Instant}, s.sim.ex.running = some t →
      s.net.inFlight t.id = some d → s'.net = s.net.deliver t.id now d →
          Loses s s' rc (.delivery loc v) cause := by
    intro loc v t d now ht hd h0
    rw [h0] at hne
    have hp : s.sim.ex.polling = some t.id := by rw [Exec.polling, ht]; rfl
    obtain ⟨hm, ⟨rfl, hi⟩ | ⟨rfl, r, hi, hb⟩⟩ := Net.lost_deliver hne
    · exact .noSocket loc v t.id d hp hd hm hi
    · exact .bufferFull loc v t.id d r hp hd hm hi hb
  cases h with
  | sim | run | dropNet | addrInUse | moveSocket | returns | receive | newPacket | clonePacket | enqueueError =>
    exact absurd rfl hne
  | openSocket port ty owner r net hu hn ho h =>
    unfold Net.openSocket at h
    split at h
    · cases h
    · simp only [Except.ok.injEq, Prod.mk.injEq] at h
      obtain ⟨rfl, rfl⟩ := h
      exact absurd rfl hne
  | dropSocket r sock net hu hn hs h =>
    unfold Net.dropSocket at h
    split_ifs at h
    cases h
    obtain ⟨rfl, hm, hp⟩ := Net.lost_collect hne
    have hp' := Net.pointed_eq_false.mp hp
    exact .inboxFreed _ r hm (by simp) (by simpa using hp'.2.1)
  | pollReceive r clone key net hu hk h0 h =>
    obtain ⟨rfl, hm, hs, hrec⟩ := Net.lost_pollReceive h hne
    exact .inboxFreed _ r hm hs hrec
  | dropReceive r hu h0 =>
    obtain ⟨rfl, hm, hp⟩ := Net.lost_collect hne
    have hp' := Net.pointed_eq_false.mp hp
    exact .inboxFreed _ r hm (by simpa [Net.dropReceive] using hp'.1) (by simpa [Net.dropReceive] using hp'.2.1)
  | dropPacket i hu h0 => exact absurd (hnote rfl) hne
  | sendCustom op src dst packet level hu hf => exact absurd (hnote rfl) hne
  | sendPerfect op src dst packet level latency t id sim hu hf ht h =>
    exact absurd ((hnote rfl).trans (hnote (n := (s.net.newPacket src dst packet level).2) rfl)) hne
  | enqueuePacket t i w id sim hu hw h0 h => exact absurd (hnote rfl) hne
  | drain r key hs hk hc hn =>
    obtain ⟨rfl, hm⟩ := Net.lost_drain hne
    obtain ⟨i, cb, len, idx, c, rest, hcb, hst⟩ := inStartNode_stack hs
    cases cb with
    | stop => exact absurd rfl hcb
    | start => exact .nodeRestarted r key i len c idx rest hm hk hn hst
    | create =>
      -- nothing is in the inboxes of a node that is being created
      have hb := hr.bare ⟨s.sim.currentNode, .calling .create idx, taken rest⟩
        (by simp [SimCx.rounds, hst, Frame.phase, Frame.below]) idx rfl r key hc hn
      rw [hb] at hm
      cases hm
  | firstPoll loc v caller rest t d sim₁ sim₂ _ hk ht hp hd h1 h2 h =>
    rcases h with h | h
    · exact absurd (by rw [h.net]) hne
    · exact deliver ht hd h.net
  | nextPoll l loc v caller rest t d sim₂ _ hk ht hp hd h2 h =>
    rcases h with h | h
    · exact absurd (by rw [h.net]) hne
    · exact deliver ht hd h.net
  | discard l v id post caller rest ph _ hk hp hph h
  | discardSleep l loc v id post caller rest sim _ hk hp hst h =>
    rw [h] at hne
    dsimp only at hne
    split at hne
    · exact absurd rfl hne
    · rename_i d hd
      obtain ⟨rfl, hm⟩ := Net.lost_abort hne
      exact .deliveryAborted _ v id post caller rest d hk hd hm

/-! ## Conservation -/

/-- The packet `w` is at that place. -/
def Stands (s : NetCx V Q P) (w : WrappedPacket P) (rc : PacketRc) : Place → Prop
  | .inFlight id => ∃ d, s.net.inFlight id = some d ∧ d.msg = .packet rc ∧ d.key = (w.header.dst, w.packet.ty) ∧
      (s.phase id = some .unpolled ∨ ∃ loc, s.phase id = some (.sleeping loc))
  | .buffered r => s.net.created r = some (w.header.dst, w.packet.ty) ∧ .packet rc ∈ s.net.buffer r
  | .received => ∃ r, s.net.created r = some (w.header.dst, w.packet.ty) ∧
      .received r rc w.packet.value w.header.src false ∈ s.net.log
  | .lost cause => .lost rc cause ∈ s.net.log
  | .held | .unsent => False

theorem Reachable.tracked {ls : List (NetLabel V P)} (hrun : Machine.run (step f) (install b) ls = .ok s)
    {rc : PacketRc} (hc : .user (.clonePacket rc) ∉ ls) : s.net.Tracked rc := by
  have hw : Machine.Along (step f) (fun _ l => l ≠ .user (.clonePacket rc)) (install b : NetCx V Q P) ls :=
    Machine.along_iff.mpr fun ls₁ l ls₂ _ hls _ h0 => hc (by rw [hls, h0]; simp)
  refine (hw.inv (I := fun s : NetCx V Q P => s.Linked b ∧ s.net.Tracked rc) ?_ hrun
    ⟨linked_install b, Net.tracked_new rc⟩).2
  rintro m l m' ⟨hL, hK⟩ hl hst
  refine ⟨hL.step hst, ?_⟩
  rcases (step_next hst).acts hL with ha | ⟨i, rfl, ha⟩
  · exact ha.tracked hL.registry hL.typed hK
  · rw [ha]
    exact hK.clonePacket fun h0 => hl (h0 ▸ rfl)

/-- **Packets are conserved.**  A packet that is not cloned is received at most once, unchanged, from the
socket's inbox for its address and type.  It is handed to `enqueue_packet` at most once, and is then in one
place: in flight, in an inbox that was opened for its address and type, received, or lost, and that only as
the cause says.  Receiving it never panics. -/
theorem packet_conservation {ls : List (NetLabel V P)} (hrun : Machine.run (step f) (install b) ls = .ok s)
    {rc : PacketRc} (hc : .user (.clonePacket rc) ∉ ls) :
    (∀ r value src cloned, .received r rc value src cloned ∈ s.net.log → ∃ w, s.net.packets rc = some w ∧
      s.net.created r = some (w.header.dst, w.packet.ty) ∧ src = w.header.src ∧ value = w.packet.value ∧
      cloned = false) ∧
    s.net.log.countP (NetObs.isReceived rc) ≤ 1 ∧ s.net.timesEnqueued rc ≤ 1 ∧
    (s.net.timesEnqueued rc = 1 → ∃ w pl, s.net.packets rc = some w ∧ s.Stands w rc pl ∧
      ∀ q, s.net.row rc q = if q = pl then 1 else 0) ∧
    (∀ l s' cause, s.step f l = .ok s' → s'.net.row rc (.lost cause) ≠ s.net.row rc (.lost cause) →
      Loses s s' rc l cause) ∧
    ∀ r key msgs clone, s.net.created r = some key → s.net.buffer r = .packet rc :: msgs →
      ∃ net, s.net.pollReceive r key.2 clone = .ok net := by
  have hr : Reachable f b s := ⟨ls, hrun⟩
  have hL := hr.linked
  have hK := Reachable.tracked hrun hc
  have hreceived : ∀ r value src cloned, .received r rc value src cloned ∈ s.net.log →
      ∃ w, s.net.packets rc = some w ∧
      s.net.created r = some (w.header.dst, w.packet.ty) ∧ src = w.header.src ∧ value = w.packet.value ∧
          cloned = false := by
    intro r value src cloned hm
    obtain ⟨w, hw, hk, hsrc, hv⟩ := hL.typed.received r rc value src cloned hm
    have h0 := hK.whole r value src cloned hm
    exact ⟨w, hw, hk, hsrc, hv h0, h0⟩
  refine ⟨hreceived, hK.kept.le_one .received, ?_, fun henq => ?_,
    fun l s' cause h hne => (step_next h).lost hr hne, fun r key msgs clone hk hb => ?_⟩
  · by_cases hlt : rc < s.net.packetCount
    · obtain ⟨pl, hpl⟩ := hK.kept.one hlt
      rw [hpl.enqueued]
      split <;> omega
    · rw [(hK.kept.none (Nat.le_of_not_lt hlt)).2]
      exact Nat.zero_le 1
  · have hlt : rc < s.net.packetCount := by
      by_contra hle
      rw [(hK.kept.none (Nat.le_of_not_lt hle)).2] at henq
      cases henq
    obtain ⟨pl, hpl⟩ := hK.kept.one hlt
    obtain ⟨w, hw⟩ := Option.ne_none_iff_exists'.mp (hK.made hlt)
    have hty := hL.typed.header rc w hw
    refine ⟨w, pl, hw, ?_, hpl.row⟩
    have hpos : 0 < s.net.row rc pl := by rw [hpl.row.self]; exact Nat.one_pos
    have hplace : pl.enqueued = true := by
      by_contra h0
      rw [hpl.enqueued, if_neg h0] at henq
      cases henq
    cases pl with
    | held | unsent => cases hplace
    | inFlight id =>
      simp only [Net.row] at hpos
      split at hpos
      · rename_i hmsg
        obtain ⟨d, hd, hm⟩ := Option.map_eq_some_iff.mp hmsg
        obtain ⟨w', hw', hkey⟩ := hL.typed.inFlight id d hd rc hm
        obtain rfl : w = w' := Option.some.inj (hw.symm.trans hw')
        exact ⟨d, hd, hm, by rw [hkey, hty], (hL.inFlight id).mp (by rw [hd]; exact Option.some_ne_none d)⟩
      · cases hpos
    | buffered r =>
      have hm : .packet rc ∈ s.net.buffer r := List.count_pos_iff.mp hpos
      obtain ⟨key, hk, hf⟩ := hL.typed.buffered r _ hm
      obtain ⟨w', hw', hkey⟩ := hf rc rfl
      obtain rfl : w = w' := Option.some.inj (hw.symm.trans hw')
      exact ⟨by rw [hk, hkey, hty], hm⟩
    | received =>
      obtain ⟨o, ho, hrec⟩ := List.countP_pos_iff.mp hpos
      cases o with
      | received r i value src cloned =>
        obtain rfl : i = rc := by simpa [NetObs.isReceived] using hrec
        obtain ⟨w', hw', hk, rfl, rfl, rfl⟩ := hreceived r value src cloned ho
        obtain rfl : w = w' := Option.some.inj (hw.symm.trans hw')
        exact ⟨r, hk, ho⟩
      | _ => cases hrec
    | lost cause =>
      obtain ⟨o, ho, hlost⟩ := List.countP_pos_iff.mp hpos
      cases o with
      | lost i c =>
        obtain ⟨rfl, rfl⟩ : i = rc ∧ c = cause := by simpa [NetObs.isLost] using hlost
        exact ho
      | _ => cases hlost
  · obtain ⟨w, -, -, hok⟩ := hK.kept.pollReceive_ok hL.typed clone hk hb
    exact ⟨_, hok⟩

/-- A net without latency. -/
def instantly : SendFunction := .perfectConnectivity SimCx.epoch.simulationStartTime

/-- The root task opens a socket, sends a packet to it and receives it. -/
def echoRun : List (NetLabel ℕ ℕ) :=
  [.sim (.user (.addSimulator netTy)), .sim (.user (.done none)), .sim (.run []), .user (.openSocket 7 3 (some 1)),
    .user (.receive 0), .sim (.user (.withSimulator netTy)), .user (.send 1 ⟨0, 7⟩ ⟨3, 42⟩ .ofPacket),
    .sim (.user (.done none)), .sim (.user (.done none)), .sim (.run []), .delivery 0 0, .sim (.user (.wake 1)),
    .sim (.user (.done none)), .delivery 0 0, .delivery 0 0, .sim (.user (.done none)), .sim (.run []),
    .user (.pollReceive 0 none)]

theorem packet_conservation_echo : ∃ s : NetCx ℕ (SwapArray Loc Instant) ℕ,
    Machine.run (step instantly) (install SimCx.epoch) echoRun = .ok s ∧
    s.net.log.countP (NetObs.isReceived 0) = 1 ∧
      ∃ w pl, s.net.packets 0 = some w ∧ s.Stands w 0 pl ∧ ∀ q, s.net.row 0 q = if q = pl then 1 else 0 := by
  obtain ⟨s, hs, hq⟩ : ∃ s : NetCx ℕ (SwapArray Loc Instant) ℕ,
      Machine.run (step instantly) (install SimCx.epoch) echoRun = .ok s ∧
      (s.net.log.countP (NetObs.isReceived 0), s.net.timesEnqueued 0) = (1, 1) :=
    Machine.exists_of_run (by decide +kernel)
  simp only [Prod.mk.injEq] at hq
  exact ⟨s, hs, hq.1, (packet_conservation hs (by simp [echoRun])).2.2.2.1 hq.2⟩

end NetCx

end Refault
