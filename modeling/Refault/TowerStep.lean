import Mathlib.Logic.Relation
import Refault.Packets
import Refault.Tower

/-!
# Refault.TowerStep — what a step of the RPC layer does

Each step is a short run of acts (`Act`), from which the invariants are derived.
-/

namespace Refault

namespace TowerCx

variable {A B E : Type}

/-- What can happen to clients, servers and the net. -/
inductive Act (s : TowerCx A B E) : TowerCx A B E → Prop
  | newId (id : Id) (h : Refault.newId s.preNextGlobalId = .ok id) : Act s { s with preNextGlobalId := id }
  | newClient (node : NodeId) (remote : Addr) (id : Id) (r : InboxRc) (net : Net (TowerPacket A B E))
      (hid : Refault.newId s.preNextGlobalId = .ok id)
        (h : s.net.openSocket (⟨node, id⟩, responseTy) = .ok (r, net)) : Act s { s with
        net := net
        preNextGlobalId := id
        clients := Function.update s.clients s.clientCount (some ⟨⟨node, id⟩, remote, r⟩)
        clientCount := s.clientCount + 1
        live := Function.update s.live s.clientCount true
        messages := Function.update s.messages s.clientCount []
        sendTask := Function.update s.sendTask s.clientCount .receiving
        recvTask := Function.update s.recvTask s.clientCount true
        responders := Function.update s.responders s.clientCount [] }
  -- the futures of calls
  | call (c : ClientId) (req : A) (hl : s.live c = true) : Act s { s with
      calls := Function.update s.calls s.callCount (some ⟨c, req⟩)
      callCount := s.callCount + 1
      phase := Function.update s.phase s.callCount .created
      responder := Function.update s.responder s.callCount .none }
  | queue (k : CallId) (call : Call A) (hk : s.calls k = some call) (hp : s.phase k = .created)
      (ho : s.sendTask call.client ≠ .dropped) : Act s { s with
        messages := Function.update s.messages call.client (s.messages call.client ++ [k])
        phase := Function.update s.phase k .sending
        responder := Function.update s.responder k .unsent }
  | waits (k : CallId) (hp : s.responder k = .unsent) :
      Act s { s with phase := Function.update s.phase k .receiving }
  | returns (k : CallId) (r : TowerResult B E) (hr : r = connectionReset ∨ s.responder k = .sent r) :
      Act s (s.returns k r)
  | dropCall (k : CallId) (hp : ∀ r, s.phase k ≠ .returned r) :
      Act s { s with phase := Function.update s.phase k .dropped }
  -- the tasks of clients
  | pollTask (t : ClientTask) (hp : s.polled = none) : Act s { s with polled := some t, aborted := false }
  | abortPolled (t : ClientTask) (hp : s.polled = some t) : Act s { s with aborted := true }
  | endPoll (h : ∀ t, s.polled = some t → s.hasTask t = true → s.aborted = false) : Act s { s with polled := none }
  | hangUp (c : ClientId) (h : ∀ t : ClientTask, t.client = c → s.hasTask t = true → s.polled = some t ∧
      s.aborted = true) : Act s { s with live := Function.update s.live c false }
  | dropSend (c : ClientId) : Act s (s.dropSend c)
  | dropRecv (c : ClientId) (s' : TowerCx A B E) (hr : s.recvTask c = true) (h : s.dropRecv c = .ok s') : Act s s'
  | send (c : ClientId) (cl : Client) (k : CallId) (messages : List CallId) (call : Call A) (id : Id)
      (hc : s.clients c = some cl)
      (hs : s.sendTask c = .receiving) (hm : s.messages c = k :: messages) (hk : s.calls k = some call)
      (hid : Refault.newId s.preNextGlobalId = .ok id) : Act s (({ s with
        net := (s.net.newPacket cl.localAddr cl.remote ⟨requestTy, .request (.start call.req id)⟩ .ofPacket).2
        preNextGlobalId := id
        messages := Function.update s.messages c messages
        sendTask := Function.update s.sendTask c (.sending id k) } :
          TowerCx A B E).note [.sent id k s.net.packetCount])
  | register (c : ClientId) (id : Id) (k : CallId) (hs : s.sendTask c = .sending id k) : Act s { s with
      sendTask := Function.update s.sendTask c .receiving
      responders := Function.update s.responders c ((id, k) :: s.responders c) }
  | fail (c : ClientId) (id : Id) (k : CallId) (kind : ErrorKind) (hs : s.sendTask c = .sending id k) :
      Act s (({ s with sendTask := Function.update s.sendTask c .receiving }.onResponders [k]
        (.send (.error (.inr kind)))).note [.failed id k kind])
  | clear (c : ClientId) (cl : Client) (kind : ErrorKind) (net : Net (TowerPacket A B E))
      (hc : s.clients c = some cl)
      (hr : s.recvTask c = true) (h : (s.net.receive cl.inbox).pollReceive cl.inbox responseTy none = .ok net) :
      Act s ({ ({ s with net := net } : TowerCx A B E).onResponders ((s.responders c).map Prod.snd)
        (.send (.error (.inr kind))) with
        responders := Function.update s.responders c [] }.note
          ((s.responders c).map fun p : Id × CallId => .cleared p.1 p.2 kind))
  | answer (c : ClientId) (cl : Client) (rc : PacketRc) (w : WrappedPacket (TowerPacket A B E))
      (result : Except E B) (id : Id)
      (k : CallId) (msgs : List Msg) (net : Net (TowerPacket A B E)) (hc : s.clients c = some cl)
        (hr : s.recvTask c = true)
      (hm : s.net.buffer cl.inbox = .packet rc :: msgs)
      (h : (s.net.receive cl.inbox).pollReceive cl.inbox responseTy none = .ok net) (hw : net.packets rc = some w)
      (hv : w.packet.value = .response (.complete result id)) (hk : (s.responders c).lookup id = some k) :
      Act s ({ ({ s with net := net } : TowerCx A B E).onResponders [k] (.send (result.mapError .inl)) with
        responders :=
          Function.update s.responders c ((s.responders c).filter
          fun p => p.1 ≠ id) }.note [.answered k result rc])
  -- servers
  | runServer (node : NodeId) (port : Id) (r : InboxRc) (net : Net (TowerPacket A B E))
      (h : s.net.openSocket (⟨node, port⟩, requestTy) = .ok (r, net)) : Act s { s with
        net := net
        servers := Function.update s.servers s.serverCount (some ⟨⟨node, port⟩, r⟩)
        serverCount := s.serverCount + 1
        serverPhase := Function.update s.serverPhase s.serverCount .receiving }
  | addrInUse : Act s { s with
      serverCount := s.serverCount + 1, serverPhase :=
        Function.update s.serverPhase s.serverCount (.returned (.inr .addrInUse)) }
  | serverError (v : ServerId) (sv : Server) (net : Net (TowerPacket A B E)) (hv : s.servers v = some sv)
      (hp : s.serverPhase v = .receiving)
      (h : (s.net.receive sv.inbox).pollReceive sv.inbox requestTy none = .ok net) : Act s { s with net := net }
  | serverEnds (v : ServerId) (sv : Server) (phase : ServerPhase A E) (s' : TowerCx A B E)
      (hv : s.servers v = some sv)
      (hp : s.serverPhase v = .receiving ∨ ∃ request, s.serverPhase v = .readying request)
      (hph : phase = .dropped ∨ ∃ e, phase = .returned e) (h : s.serverEnds v sv phase = .ok s') : Act s s'
  | serverGets (v : ServerId) (sv : Server) (rc : PacketRc) (w : WrappedPacket (TowerPacket A B E)) (req : A)
      (id : Id) (msgs : List Msg)
      (net : Net (TowerPacket A B E)) (hv : s.servers v = some sv) (hp : s.serverPhase v = .receiving)
      (hm : s.net.buffer sv.inbox = .packet rc :: msgs)
      (h : (s.net.receive sv.inbox).pollReceive sv.inbox requestTy none = .ok net) (hw : net.packets rc = some w)
      (hval : w.packet.value = .request (.start req id)) : Act s { s with
        net := net
        serverPhase := Function.update s.serverPhase v (.readying ⟨rc, req, id, w.header.src⟩) }
  | startJob (v : ServerId) (sv : Server) (request : Request A) (hv : s.servers v = some sv)
      (hp : s.serverPhase v = .readying request) : Act s { s with
        serverPhase := Function.update s.serverPhase v .receiving
        jobs := Function.update s.jobs s.jobCount (some ⟨sv.localAddr, request⟩)
        jobCount := s.jobCount + 1
        jobPhase := Function.update s.jobPhase s.jobCount .computing }
  | reply (j : JobId) (job : Job A) (result : Except E B) (phase : JobPhase) (hj : s.jobs j = some job)
      (hp : s.jobPhase j = .computing) (hph : phase ≠ .computing) : Act s (({ s with
        net := (s.net.newPacket job.localAddr job.request.address
          ⟨responseTy, .response (.complete result job.request.id)⟩ .ofPacket).2
        jobPhase := Function.update s.jobPhase j phase } :
          TowerCx A B E).note [.replied j result s.net.packetCount])
  | jobDone (j : JobId) : Act s { s with jobPhase := Function.update s.jobPhase j .done }
  | net (e : NetEvent) (net : Net (TowerPacket A B E)) (h : netEvent s.net e = .ok net) :
      Act s { s with net := net }
  | nodes (stopped : NodeId → Bool) : Act s { s with stopped := stopped }

/-! ## Steps are runs of acts -/

/-- A run of acts. -/
abbrev Acts (s s' : TowerCx A B E) : Prop := Relation.ReflTransGen Act s s'

variable {s s' : TowerCx A B E}

section Invert

variable {X Y : Type}

theorem newId_bind {f : Id × TowerCx A B E → Except TowerHalt X} {x : X} : (s.newId >>= f) = .ok x ↔
    ∃ id, Refault.newId s.preNextGlobalId = .ok id ∧ f (id, { s with preNextGlobalId := id }) = .ok x := by
  unfold newId
  rw [Except.bind_eq_ok_iff]
  cases Refault.newId s.preNextGlobalId with
  | error p => simp [Except.mapError]
  | ok id => simp [Except.mapError, Except.bind_eq_ok_iff, pure, Except.pure]

theorem inNet_bind {x : Except NetPanic Y} {f : Y → Except TowerHalt X} {a : X} :
    (inNet x >>= f) = .ok a ↔ ∃ y, x = .ok y ∧ f y = .ok a := by
  rw [Except.bind_eq_ok_iff]
  cases x with
  | error p => simp [inNet, Except.mapError]
  | ok y => simp [inNet, Except.mapError]

end Invert

/-- A task is spawned: its node runs, and it gets an id. -/
theorem spawn_ok {node : NodeId} (h : s.spawn node = .ok s') : s.stopped node = false ∧
    ∃ id, Refault.newId s.preNextGlobalId = .ok id ∧ s' = { s with preNextGlobalId := id } := by
  unfold spawn at h
  split_ifs at h with hn
  · cases h
  · obtain ⟨id, hid, h⟩ := newId_bind.mp h
    cases h
    exact ⟨by simpa using hn, id, hid, rfl⟩

theorem newClient_acts {node : NodeId} {remote : Addr} (h : s.newClient node remote = .ok s') : Acts s s' := by
  unfold newClient at h
  obtain ⟨id, hid, h⟩ := newId_bind.mp h
  dsimp only at h
  split at h
  · cases h
  · rename_i r net ho
    obtain ⟨s₁, h₁, h⟩ := Except.bind_eq_ok_iff.mp h
    obtain ⟨s₂, h₂, h⟩ := Except.bind_eq_ok_iff.mp h
    obtain ⟨-, id₁, hid₁, rfl⟩ := spawn_ok h₁
    obtain ⟨-, id₂, hid₂, rfl⟩ := spawn_ok h₂
    cases h
    -- the two tasks are there before their ids
    exact .head (.newClient node remote id r net hid ho) (.head (.newId id₁ hid₁) (.single (.newId id₂ hid₂)))

theorem awaitResponder_acts (k : CallId) : Acts s (s.awaitResponder k) := by
  unfold awaitResponder
  split
  · rename_i r hr
    exact .single (.returns k r (Or.inr hr))
  · rename_i hr
    exact .single (.waits k hr)
  · exact .single (.returns k _ (Or.inl rfl))
  · exact .single (.returns k _ (Or.inl rfl))

theorem pollCall_acts {k : CallId} (h : s.pollCall k = .ok s') : Acts s s' := by
  unfold pollCall at h
  split at h
  · cases h
  · rename_i call hk
    split at h
    · rename_i hp
      split_ifs at h with ho
      · cases h
        exact .single (.queue k call hk hp (by simpa [isOpen] using ho))
      · cases h
        exact .single (.returns k _ (Or.inl rfl))
    · split_ifs at h
      · cases h
        exact .refl
      · cases h
        exact awaitResponder_acts k
    · cases h
      exact awaitResponder_acts k
    · cases h
    · cases h

theorem dropCall_acts {k : CallId} (h : s.dropCall k = .ok s') : Acts s s' := by
  unfold dropCall at h
  split at h
  · cases h
  · split at h
    · cases h
    · cases h
    · rename_i hr _
      cases h
      exact .single (.dropCall k hr)

theorem sendPolled_acts {c : ClientId} {id : Id} {k : CallId} (outcome : SendOutcome)
    (hs : s.sendTask c = .sending id k) : Acts s (s.sendPolled c id k outcome) := by
  cases outcome with
  | pending => exact .refl
  | ready r =>
    cases r with
    | ok u => exact .single (.register c id k hs)
    | error kind => exact .single (.fail c id k kind hs)

theorem pollSend_acts {c : ClientId} {outcome : SendOutcome} (h : s.pollSend c outcome = .ok s') : Acts s s' := by
  unfold pollSend at h
  split at h
  · cases h
  · rename_i cl hc
    split at h
    swap
    · cases h
    split at h
    · rename_i hs
      split at h
      · split_ifs at h
        cases h
      · rename_i k messages hm
        split at h
        · cases h
        · rename_i call hk
          obtain ⟨id, hid, h⟩ := newId_bind.mp h
          cases h
          refine .head (.send c cl k messages call id hc hs hm hk hid) (sendPolled_acts outcome ?_)
          simp [note]
    · rename_i id k hs
      cases h
      exact sendPolled_acts outcome hs
    · cases h

/-- A `Sender` is dropped once. -/
theorem onResponders_cancel (ks ks' : List CallId) :
    (s.onResponders ks .cancel).onResponders ks' .cancel = s.onResponders (ks ++ ks') .cancel := by
  have hcc : ∀ o : Responder (TowerResult B E), o.cancel.cancel = o.cancel := fun o => by cases o <;> rfl
  unfold onResponders
  congr 1
  funext k
  by_cases h1 : k ∈ ks <;> by_cases h2 : k ∈ ks' <;> simp [h1, h2, hcc]

/-- The calls whose `Sender`s go with `send_task`: those in the channel, its own, and those in the map when
`recv_task` is gone. -/
def cutOff (s : TowerCx A B E) (c : ClientId) : List CallId :=
  s.messages c ++ (s.sendTask c).entries.map Prod.snd ++ if s.recvTask c then [] else (s.responders c).map Prod.snd

theorem dropSend_eq (c : ClientId) : s.dropSend c = { s.onResponders (s.cutOff c) .cancel with
    messages := Function.update s.messages c []
    sendTask := Function.update s.sendTask c .dropped
    responders := if s.recvTask c then s.responders else Function.update s.responders c [] } := by
  unfold dropSend cutOff
  dsimp only
  split
  · rw [List.append_nil]
    rfl
  · rw [← onResponders_cancel (s.messages c ++ _)]
    rfl

@[simp] theorem dropSend_sendTask (c : ClientId) :
    (s.dropSend c).sendTask = Function.update s.sendTask c .dropped := by
  rw [dropSend_eq]

@[simp] theorem dropSend_recvTask (c : ClientId) : (s.dropSend c).recvTask = s.recvTask := by
  rw [dropSend_eq]
  rfl

/-- What is left of a client whose `recv_task` is dropped. -/
theorem dropRecv_ok {c : ClientId} (h : s.dropRecv c = .ok s') : ∃ cl net, s.clients c = some cl ∧
    s.net.dropSocket cl.inbox ⟨cl.localAddr, responseTy⟩ = .ok net ∧
    s' = if s.isOpen c then
        ({ s with net := net, recvTask := Function.update s.recvTask c false } : TowerCx A B E)
      else ({ s with net := net, recvTask := Function.update s.recvTask c false } :
        TowerCx A B E).dropResponders c := by
  unfold dropRecv at h
  split at h
  · cases h
  · rename_i cl hc
    obtain ⟨net, hnet, h⟩ := inNet_bind.mp h
    cases h
    exact ⟨cl, net, hc, hnet, rfl⟩

/-- Nothing goes through a `Sender` that is dropped. -/
theorem onResponders_cancel_sent {ks : List CallId} {k : CallId} {r : TowerResult B E} :
    (s.onResponders ks .cancel).responder k = .sent r ↔ s.responder k = .sent r := by
  unfold onResponders
  dsimp only
  split
  · cases s.responder k <;> simp [Responder.cancel]
  · exact Iff.rfl

/-- What an abort does: the task is gone, or it goes after its poll. -/
structure Aborts (s : TowerCx A B E) (t : ClientTask) (s' : TowerCx A B E) : Prop where
  acts : Acts s s'
  polled : s'.polled = s.polled
  gone : s'.hasTask t = true → s.polled = some t ∧ s'.aborted = true
  other : ∀ t', s'.hasTask t' = true → s.hasTask t' = true
  aborted : s.aborted = true → s'.aborted = true
  live : s'.live = s.live
  sent : ∀ k r, s'.responder k = .sent r ↔ s.responder k = .sent r

theorem hasTask_dropSend {c : ClientId} {t : ClientTask} (h : (s.dropSend c).hasTask t = true) : t ≠ .send c ∧
    s.hasTask t = true := by
  cases t with
  | send c' =>
    have hne : c' ≠ c := by
      rintro rfl
      simp [hasTask, isOpen] at h
    exact ⟨by simpa using hne, by simpa [hasTask, isOpen, hne] using h⟩
  | recv c' => exact ⟨by simp, by simpa [hasTask] using h⟩

theorem hasTask_dropRecv {c : ClientId} {t : ClientTask} (hd : s.dropRecv c = .ok s') (h : s'.hasTask t = true) :
    t ≠ .recv c ∧ s.hasTask t = true := by
  obtain ⟨cl, net, -, -, hs'⟩ := dropRecv_ok hd
  have hsend : s'.sendTask = s.sendTask := by
    rw [hs']
    split <;> rfl
  have hrecv : s'.recvTask = Function.update s.recvTask c false := by
    rw [hs']
    split <;> rfl
  cases t with
  | send c' => exact ⟨by simp, by simpa [hasTask, isOpen, hsend] using h⟩
  | recv c' =>
    have hne : c' ≠ c := by
      rintro rfl
      simp [hasTask, hrecv] at h
    exact ⟨by simpa using hne, by simpa [hasTask, hrecv, hne] using h⟩

theorem abort_ok {t : ClientTask} (h : s.abort t = .ok s') : s.Aborts t s' := by
  unfold abort at h
  split_ifs at h with ht hp
  · cases h
    exact ⟨.single (.abortPolled t hp), rfl, fun _ => ⟨hp, rfl⟩, fun _ h => h, fun _ => rfl, rfl,
      fun _ _ => Iff.rfl⟩
  · cases t with
    | send c =>
      cases h
      refine ⟨.single (.dropSend c), ?_, fun h => absurd rfl (hasTask_dropSend h).1,
        fun t' h => (hasTask_dropSend h).2, ?_, ?_, fun k r => ?_⟩ <;> rw [dropSend_eq]
      · rfl
      · exact id
      · rfl
      · exact onResponders_cancel_sent
    | recv c =>
      have hd : s.dropRecv c = .ok s' := h
      refine ⟨.single (.dropRecv c s' ht hd), ?_, fun h => absurd rfl (hasTask_dropRecv hd h).1,
        fun t' h => (hasTask_dropRecv hd h).2, ?_, ?_, fun k r => ?_⟩ <;>
          obtain ⟨cl, net, -, -, rfl⟩ := dropRecv_ok hd <;> split
      · rfl
      · rfl
      · exact id
      · exact id
      · rfl
      · rfl
      · exact Iff.rfl
      · exact onResponders_cancel_sent
  · cases h
    exact ⟨.refl, rfl, fun h => absurd h ht, fun _ h => h, fun h => h, rfl, fun _ _ => Iff.rfl⟩

/-- That the `Client` is gone makes no difference to its tasks. -/
theorem abort_live {t : ClientTask} {live : ClientId → Bool}
    (h : ({ s with live := live } : TowerCx A B E).abort t = .ok s') : ∃ m, s.abort t = .ok m ∧
    s' = { m with live := live } := by
  have htask : ({ s with live := live } : TowerCx A B E).hasTask t = s.hasTask t := by cases t <;> rfl
  unfold abort at h ⊢
  rw [htask] at h
  split_ifs at h ⊢ with ht hp
  · cases h
    exact ⟨_, rfl, rfl⟩
  · cases t with
    | send c =>
      cases h
      refine ⟨_, rfl, ?_⟩
      rw [dropSend_eq, dropSend_eq]
      rfl
    | recv c =>
      obtain ⟨cl, net, hc, hnet, rfl⟩ := dropRecv_ok h
      have hd : s.dropRecv c = inNet (.ok net) >>= fun net => .ok (if s.isOpen c then
          ({ s with net := net, recvTask := Function.update s.recvTask c false } : TowerCx A B E)
        else ({ s with net := net, recvTask := Function.update s.recvTask c false } :
          TowerCx A B E).dropResponders c) := by
        unfold dropRecv
        rw [show s.clients c = some cl from hc]
        dsimp only
        rw [show s.net.dropSocket cl.inbox ⟨cl.localAddr, responseTy⟩ = .ok net from hnet]
        rfl
      refine ⟨_, hd, ?_⟩
      by_cases ho : s.isOpen c = true
      · rw [if_pos ho, if_pos (show ({ s with live := live } : TowerCx A B E).isOpen c = true from ho)]
      · rw [if_neg ho, if_neg (show ¬({ s with live := live } : TowerCx A B E).isOpen c = true from ho)]
        rfl
  · cases h
    exact ⟨s, rfl, rfl⟩

theorem dropClient_acts {c : ClientId} {borrowed : Bool} (h : s.dropClient c borrowed = .ok s') : Acts s s' := by
  unfold dropClient at h
  split_ifs at h
  · cases h
  · obtain ⟨m, hm, h⟩ := Except.bind_eq_ok_iff.mp h
    obtain ⟨s₁, h₁, rfl⟩ := abort_live hm
    obtain ⟨s₂, h₂, rfl⟩ := abort_live h
    have ha := abort_ok h₁
    have hb := abort_ok h₂
    rw [← ha.live, ← hb.live]
    refine (ha.acts.trans hb.acts).tail (.hangUp c fun t ht hin => ?_)
    -- what is left of its tasks is polled
    cases t with
    | send c' =>
      obtain rfl : c' = c := ht
      obtain ⟨hp, ho⟩ := ha.gone (hb.other _ hin)
      exact ⟨(hb.polled.trans ha.polled).trans hp, hb.aborted ho⟩
    | recv c' =>
      obtain rfl : c' = c := ht
      obtain ⟨hp, ho⟩ := hb.gone hin
      exact ⟨hb.polled.trans hp, ho⟩

theorem endPoll_acts (h : s.endPoll = .ok s') : Acts s s' := by
  unfold endPoll at h
  split at h
  · cases h
  · rename_i c hp
    split_ifs at h with hw ha
    · cases h
      refine .head (.dropSend c) (.single (.endPoll fun t ht hin => ?_))
      -- it is gone
      have hpolled : (s.dropSend c).polled = s.polled := by rw [dropSend_eq]; rfl
      obtain rfl : ClientTask.send c = t := Option.some.inj (hp.symm.trans (hpolled.symm.trans ht))
      exact absurd rfl (hasTask_dropSend hin).1
    · cases h
      exact .single (.endPoll fun _ _ _ => by simpa using ha)
  · split at h
    · cases h
    · split_ifs at h with hw ha
      · cases h
      · cases h
        exact .single (.endPoll fun _ _ _ => by simpa using ha)

theorem pollRecv_acts {c : ClientId} (h : s.pollRecv c = .ok s') : Acts s s' := by
  unfold pollRecv at h
  split at h
  · cases h
  · rename_i cl hc
    split_ifs at h with hr
    have hr := hr.2
    split at h
    · cases h
    · rename_i msg msgs hm
      obtain ⟨net, hnet, h⟩ := inNet_bind.mp h
      cases msg with
      | error kind =>
        cases h
        exact .single (.clear c cl kind net hc hr hnet)
      | packet rc =>
        dsimp only at h
        split at h
        · rename_i header ty result id hw
          split at h
          swap
          · cases h
          split at h
          · cases h
          · rename_i k hk
            cases h
            exact .single (.answer c cl rc _ result id k msgs net hc hr hm hnet hw rfl hk)
        · cases h

theorem serverEnds_acts {v : ServerId} {sv : Server} {phase : ServerPhase A E} (hv : s.servers v = some sv)
    (hp : s.serverPhase v = .receiving ∨ ∃ request, s.serverPhase v = .readying request)
    (hph : phase = .dropped ∨ ∃ e, phase = .returned e) (h : s.serverEnds v sv phase = .ok s') : Acts s s' :=
  .single (.serverEnds v sv phase s' hv hp hph h)

theorem pollServer_acts {v : ServerId} (h : s.pollServer v = .ok s') : Acts s s' := by
  unfold pollServer at h
  split at h
  · rename_i sv hv hp
    split at h
    · cases h
    · rename_i msg msgs hm
      obtain ⟨net, hnet, h⟩ := inNet_bind.mp h
      cases msg with
      | error kind =>
        have ha : Act s { s with net := net } := .serverError v sv net hv hp hnet
        exact .head ha (serverEnds_acts (s := { s with net := net }) hv (Or.inl hp) (Or.inr ⟨_, rfl⟩) h)
      | packet rc =>
        dsimp only at h
        split at h
        · rename_i header ty req id hw
          cases h
          exact .single (.serverGets v sv rc _ req id msgs net hv hp hm hnet hw rfl)
        · cases h
  · cases h

theorem serviceReady_acts {v : ServerId} {r : Except E Unit} (h : s.serviceReady v r = .ok s') : Acts s s' := by
  unfold serviceReady at h
  split at h
  · rename_i sv request hv hp
    cases r with
    | error e => exact serverEnds_acts hv (Or.inr ⟨request, hp⟩) (Or.inr ⟨_, rfl⟩) h
    | ok u =>
      obtain ⟨m, hm, h⟩ := Except.bind_eq_ok_iff.mp h
      obtain ⟨-, id, hid, rfl⟩ := spawn_ok hm
      cases h
      exact .head (.newId id hid) (.single (.startJob (s := { s with preNextGlobalId := id }) v sv request hv hp))
  · cases h

theorem dropServer_acts {v : ServerId} {borrowed : Bool} (h : s.dropServer v borrowed = .ok s') : Acts s s' := by
  unfold dropServer at h
  split at h
  · rename_i sv hv hp
    split_ifs at h
    · cases h
    · exact serverEnds_acts hv (Or.inl hp) (Or.inl rfl) h
  · rename_i sv request hv hp
    split_ifs at h
    · cases h
    · exact serverEnds_acts hv (Or.inr ⟨request, hp⟩) (Or.inl rfl) h
  · cases h

theorem complete_acts {j : JobId} {result : Except E B} {outcome : SendOutcome}
    (h : s.complete j result outcome = .ok s') : Acts s s' := by
  unfold complete at h
  split at h
  · rename_i job hj hp
    cases h
    refine .single (.reply j job result _ hj hp ?_)
    cases outcome <;> simp
  · cases h

theorem step_acts {l : TowerLabel A B E} (h : s.step l = .ok s') : Acts s s' := by
  cases l with
  | newClient node remote => exact newClient_acts h
  | pollReady c =>
    simp only [step, pollReady] at h
    split_ifs at h
    · cases h
      exact .refl
    · cases h
  | call c req =>
    simp only [step, call] at h
    split_ifs at h with hl
    cases h
    exact .single (.call c req hl)
  | pollCall k => exact pollCall_acts h
  | dropCall k => exact dropCall_acts h
  | dropClient c borrowed => exact dropClient_acts h
  | pollTask t =>
    simp only [step, pollTask] at h
    split_ifs at h with hp
    cases h
    exact .single (.pollTask t hp.1)
  | pollSend c outcome => exact pollSend_acts h
  | pollRecv c => exact pollRecv_acts h
  | endPoll => exact endPoll_acts h
  | abort t => exact (abort_ok h).1
  | runServer node port =>
    simp only [step, runServer] at h
    split at h
    · cases h
      exact .single .addrInUse
    · rename_i r net ho
      cases h
      exact .single (.runServer node port r net ho)
  | pollServer v => exact pollServer_acts h
  | serviceReady v r => exact serviceReady_acts h
  | dropServer v borrowed => exact dropServer_acts h
  | complete j result outcome => exact complete_acts h
  | pollJob j =>
    simp only [step, pollJob] at h
    split at h
    · cases h
      exact .single (.jobDone j)
    · cases h
  | dropJob j =>
    simp only [step, dropJob] at h
    split at h
    · cases h
    · cases h
      exact .single (.jobDone j)
  | net e =>
    obtain ⟨net, hnet, h⟩ := Except.bind_eq_ok_iff.mp h
    cases h
    exact .single (.net e net hnet)
  | stopNode node | startNode node =>
    cases h
    exact .single (.nodes _)
  | newId =>
    obtain ⟨id, hid, h⟩ := newId_bind.mp h
    cases h
    exact .single (.newId id hid)

theorem Reachable.acts (hr : Reachable s) : Acts install s :=
  hr.induct (P := Acts install) .refl fun _ _ _ _ hm h => hm.trans (step_acts h)

end TowerCx

end Refault
