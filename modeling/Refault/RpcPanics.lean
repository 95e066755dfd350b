import Refault.Rpc

/-!
# Refault.RpcPanics — when the RPC layer panics

Of the `unwrap`s and assertions of `Client` and `run_server`, and of those of the net and the executor that
they reach, these can fail (`Panics`): `Id::new` when there are no more ids; `spawn` on a node that is
stopped, which a service can have done in `poll_ready` or `call`; `poll_ready` of a client without
`send_task`; `r.next().await.unwrap()` of a `send_task` whose client was dropped in this very poll; the
look-up of a response's id in `recv_task`, when `net.send` is not done with the request, or the call was
already told of an error, or `send_task` was dropped with the request; and a drop of the client, of its
`recv_task` or of the future of `run_server` while the context is borrowed.
-/

namespace Refault

namespace Net

variable {P : Type} {n n' : Net P} {ty : TypeId}

/-- Only a delivery puts a message into an inbox. -/
theorem Act.mem_buffer (h : Act n n') {r : InboxRc} {msg : Msg} (hm : msg ∈ n'.buffer r) :
    msg ∈ n.buffer r ∨ ∃ id d, n.inFlight id = some d ∧ d.msg = msg ∧ n.inboxes d.key = some r := by
  have hcollect : ∀ {m : Net P} {r'}, msg ∈ (m.collect r').buffer r → msg ∈ m.buffer r := fun {m r'} h => by
    rw [collect_buffer] at h
    split_ifs at h
    · cases h
    · exact h
  have hset : ∀ {m : Net P} {r' msg' msgs}, m.buffer r' = msg' :: msgs →
      msg ∈ (m.setBuffer r' msgs).buffer r → msg ∈ m.buffer r := by
    intro m r' msg' msgs hb h
    by_cases h0 : r = r'
    · subst h0
      rw [hb]
      exact List.mem_cons_of_mem _ (by simpa using h)
    · simpa [h0] using h
  cases h with
  | deliver id now d h =>
    unfold Net.deliver at hm
    dsimp only at hm
    split at hm
    · exact Or.inl (by simpa using hm)
    · rename_i r' hr'
      split_ifs at hm
      · by_cases h0 : r = r'
        · subst h0
          simp only [setBuffer_buffer, Function.update_self, List.mem_append, List.mem_singleton] at hm
          rcases hm with hm | rfl
          · exact Or.inl hm
          · exact Or.inr ⟨id, d, h, rfl, hr'⟩
        · exact Or.inl (by simpa [h0] using hm)
      · exact Or.inl (by simpa using hm)
  | abortDelivery id d h =>
    refine Or.inl ?_
    unfold Net.abortDelivery at hm
    simpa using hm
  | openSocket key r' n' hd h =>
    unfold Net.openSocket at h
    split at h
    · cases h
    · cases h
      by_cases h0 : r = n.inboxCount
      · subst h0
        simp at hm
      · exact Or.inl (by simpa [h0] using hm)
  | dropSocket r' sock n' hs h =>
    unfold Net.dropSocket at h
    split_ifs at h
    cases h
    have h1 := hcollect hm
    exact Or.inl h1
  | dropReceive r' h =>
    have h1 := hcollect hm
    exact Or.inl h1
  | pollReceive r' key clone n' h hk hp =>
    unfold Net.pollReceive at hp
    split at hp
    · cases hp
      exact Or.inl hm
    · rename_i msg' msgs hb
      obtain ⟨m, hrm, hp⟩ := Except.bind_eq_ok_iff.mp hp
      cases hp
      have h1 := hcollect hm
      refine Or.inl (hset hb ?_)
      cases msg' with
      | error kind =>
        cases hrm
        exact h1
      | packet rc =>
        simp only [Net.receiveMsg] at hrm
        split at hrm
        · cases hrm
        · split_ifs at hrm
          obtain ⟨⟨value, cloned⟩, -, hrm⟩ := Except.bind_eq_ok_iff.mp hrm
          cases hrm
          exact h1
  | drain r' key h =>
    refine Or.inl ?_
    unfold Net.drain at hm
    split at hm
    · exact hm
    · rename_i msg' msgs hb
      exact hset hb (by simpa using hm)
  | _ => exact Or.inl hm

/-- No error is on the way to, or in, an inbox of the type. -/
structure Clean (n : Net P) (ty : TypeId) : Prop where
  inFlight : ∀ id d kind, n.inFlight id = some d → d.key.2 = ty → d.msg ≠ .error kind
  buffered : ∀ r key kind, n.created r = some key → key.2 = ty → .error kind ∉ n.buffer r

/-- An inbox stays what it was created for. -/
theorem Act.created (hR : n.Registry) (h : Act n n') {r : InboxRc} {key : Key} (hk : n.created r = some key) :
    n'.created r = some key := by
  have wiring : n'.wiring = n.wiring → n'.created r = some key :=
    fun h => (congrFun (congrArg Wiring.created h) r).trans hk
  cases h with
  | deliver id now d h => exact wiring (deliver_wiring _ _ _ _)
  | abortDelivery id d h => exact wiring (lose_wiring _ _ _)
  | openSocket key' r' n' hd h =>
    obtain ⟨-, rfl, hw⟩ := openSocket_ok h
    have hne : r ≠ n.inboxCount := by
      rintro rfl
      rw [(hR.fresh _ le_rfl).2.2] at hk
      cases hk
    exact (congrFun (congrArg Wiring.created hw) r).trans ((Function.update_of_ne hne _ _).trans hk)
  | dropSocket r' sock n' hs h => exact (congrFun (congrArg Wiring.created (dropSocket_ok h)) r).trans hk
  | dropReceive r' h => exact wiring (collect_wiring _ _)
  | pollReceive r' key' clone n' h hk' hp => exact wiring (pollReceive_wiring hp)
  | drain r' key' h => exact wiring (drain_wiring _ _)
  | _ => exact hk

theorem Clean.act (hC : n.Clean ty) (hR : n.Registry) (hT : n.Typed) (h : Act n n')
    (hf : ∀ id d kind, n'.inFlight id = some d → d.msg = .error kind → d.key.2 = ty →
      n.inFlight id = some d) : n'.Clean ty where
  inFlight id d kind hd hty hm := hC.inFlight id d kind (hf id d kind hd hm hty) hty hm
  buffered r key kind hk hty hm := by
    rcases h.mem_buffer hm with hm | ⟨id, d, hd, hmsg, hi⟩
    · obtain ⟨key', hk', -⟩ := hT.buffered r _ hm
      obtain rfl : key' = key := Option.some.inj ((h.created hR hk').symm.trans hk)
      exact hC.buffered r key' kind hk' hty hm
    · have hk' := hR.created_of_inboxes hi
      have hkey : d.key = key := Option.some.inj ((h.created hR hk').symm.trans hk)
      exact hC.inFlight id d kind hd (hkey ▸ hty) hmsg

end Net

namespace TowerCx

variable {A B E : Type} {s s' : TowerCx A B E}

/-! ## Sockets -/

/-- No panic: what is received on a socket is of its type, and not shared. -/
theorem Wired.receives (hW : s.Wired) {r : InboxRc} {key : Key} {msg : Msg} {msgs : List Msg}
    (hs : s.net.sockets r ≠ none) (hk : s.net.created r = some key) (hm : s.net.buffer r = msg :: msgs) :
    ∃ net, (s.net.receive r).pollReceive r key.2 none = .ok net := by
  have ha : Net.Acts s.net (s.net.receive r) := .single (.receive r hs)
  cases msg with
  | error kind =>
    unfold Net.pollReceive
    rw [show (s.net.receive r).buffer r = .error kind :: msgs from hm]
    exact ⟨_, rfl⟩
  | packet rc =>
    obtain ⟨w, -, -, hok⟩ := (ha.tracked hW.registry hW.typed (hW.tracked rc)).kept.pollReceive_ok
      (ha.typed hW.registry hW.typed) none hk hm
    exact ⟨_, hok⟩

theorem Wired.dropRecv_ok (hW : s.Wired) {c : ClientId} (hr : s.recvTask c = true) {p : TowerPanic} :
    s.dropRecv c ≠ .error (.panic p) := by
  unfold TowerCx.dropRecv
  split
  · simp
  · rename_i cl hc
    obtain ⟨net, h, -⟩ := hW.closed (hW.clientMade c cl hc) (hW.clientSocket c cl hc hr)
    rw [show s.net.dropSocket cl.inbox ⟨cl.localAddr, responseTy⟩ = .ok net from h]
    exact fun h => by cases h

theorem Wired.serverEnds_ok (hW : s.Wired) {v : ServerId} {sv : Server} (hv : s.servers v = some sv)
    (hr : s.runs v)
    {phase : ServerPhase A E} {p : TowerPanic} : s.serverEnds v sv phase ≠ .error (.panic p) := by
  obtain ⟨net, h, -⟩ := hW.closed (hW.serverMade v sv hv) (hW.serverSocket v sv hv hr)
  unfold TowerCx.serverEnds
  rw [show s.net.dropSocket sv.inbox ⟨sv.localAddr, requestTy⟩ = .ok net from h]
  exact fun h => by cases h

/-- An abort never panics. -/
theorem Wired.abort_never (hW : s.Wired) {t : ClientTask} {p : TowerPanic} : s.abort t ≠ .error (.panic p) := by
  unfold TowerCx.abort
  split_ifs with ht hp
  · simp
  · cases t with
    | send c => simp
    | recv c => exact hW.dropRecv_ok ht
  · simp

/-- Dropping a client panics when the context is borrowed. -/
theorem Wired.dropClient_panic (hW : s.Wired) {c : ClientId} {borrowed : Bool} {p : TowerPanic} :
    s.dropClient c borrowed = .error (.panic p) ↔
    s.live c = true ∧ borrowed = true ∧ p = .executor .alreadyBorrowed := by
  unfold TowerCx.dropClient
  split_ifs with hl hb
  · simp [panic, hl, hb, eq_comm]
  · refine iff_of_false (fun h => ?_) (by simp [hb])
    have hW' : ({ s with live := Function.update s.live c false } : TowerCx A B E).Wired := { hW with }
    rcases Except.bind_eq_error_iff.mp h with h | ⟨m, hm, h⟩
    · exact hW'.abort_never h
    · exact ((abort_ok hm).acts.wired hW').abort_never h
  · exact iff_of_false (by simp) (by simp [hl])

theorem Wired.dropServer_panic (hW : s.Wired) {v : ServerId} {borrowed : Bool} {p : TowerPanic} :
    s.dropServer v borrowed = .error (.panic p) ↔
      (∃ sv, s.servers v = some sv) ∧ s.runs v ∧ borrowed = true ∧ p = .executor .alreadyBorrowed := by
  have ends : ∀ {sv}, s.servers v = some sv → s.runs v →
      ((if borrowed = true then panic (.executor .alreadyBorrowed)
      else s.serverEnds v sv .dropped) = .error (.panic p) ↔
        (∃ sv, s.servers v = some sv) ∧ s.runs v ∧ borrowed = true ∧
            p = .executor .alreadyBorrowed) := fun {sv} hv hr => by
    split_ifs with hb
    · simp [panic, hb, hr, hv, eq_comm]
    · exact iff_of_false (hW.serverEnds_ok hv hr) (by simp [hb])
  unfold TowerCx.dropServer
  split
  · rename_i sv hv hp
    exact ends hv (Or.inl hp)
  · rename_i sv request hv hp
    exact ends hv (Or.inr ⟨request, hp⟩)
  · rename_i h1 h2
    refine iff_of_false (by simp) ?_
    rintro ⟨⟨sv, hv⟩, hp | ⟨request, hp⟩, -⟩
    · exact h1 sv hv hp
    · exact h2 sv request hv hp

/-! ## `recv_task` -/

/-- A response in the inbox of a client comes from the client's remote address, and answers a call of this
client. -/
theorem Rpc.inbox (hR : s.Rpc) {c : ClientId} {cl : Client} {rc : PacketRc} {w : WrappedPacket (TowerPacket A B E)}
    {msgs : List Msg} (hc : s.clients c = some cl) (hr : s.recvTask c = true)
    (hm : s.net.buffer cl.inbox = .packet rc :: msgs)
    (hw : s.net.packets rc = some w) :
    ∃ result id j job k rc₀, w.packet = ⟨responseTy, .response (.complete result id)⟩ ∧
      w.header.src = cl.remote ∧ s.Replied j result rc job ∧ id = job.request.id ∧ .sent id k rc₀ ∈ s.log ∧
      s.CallOf c k := by
  obtain ⟨net, hnet⟩ := hR.wired.receives (hR.wired.clientSocket c cl hc hr) (hR.wired.clientMade c cl hc) hm
  obtain ⟨⟨w', hw', hkey⟩, -⟩ :=
    hR.wired.gets (hR.wired.clientSocket c cl hc hr) (hR.wired.clientMade c cl hc) hm hnet
  obtain rfl : w' = w := Option.some.inj (hw'.symm.trans hw)
  have hty : w'.packet.ty = responseTy := (congrArg Prod.snd hkey).symm
  have hdst : cl.localAddr = w'.header.dst := congrArg Prod.fst hkey
  rcases hR.told.packets rc w' hw with ⟨id, k, h⟩ | ⟨j, result, h⟩
  · obtain ⟨-, -, -, call, cl', ha⟩ := hR.told.sent id k rc h
    obtain rfl := Option.some.inj (ha.packet.symm.trans hw)
    exact absurd hty (by simp [WrappedPacket.new])
  · obtain ⟨-, job, hrep⟩ := hR.served.replied j result rc h
    obtain rfl := Option.some.inj (hrep.packet.symm.trans hw)
    obtain ⟨k, call, cl', hask, hreq, haddr, hlocal, -⟩ := hR.served.jobs j job hrep.ofJob
    have hcl : c = call.client := hR.wired.clientInj c call.client cl cl' hc hask.ofClient (hdst.trans haddr)
    have hsame : cl' = cl := Option.some.inj (hask.ofClient.symm.trans (hcl ▸ hc))
    exact ⟨result, _, j, job, k, _, rfl, hlocal.trans (by rw [hsame]), hrep, rfl, hask.sent, call,
      hask.ofCall, hcl.symm⟩

/-- Why the request `id` has no responder in the map of its client: `net.send` has not answered yet, the call
was told of an error, or `send_task` was dropped with its `Sender`. -/
inductive Unclaimed (s : TowerCx A B E) (c : ClientId) (id : Id) : Prop
  | sending (k : CallId) (h : s.sendTask c = .sending id k)
  | errored (k : CallId) (kind : ErrorKind) (h : s.Errored id k kind)
  | canceled (k : CallId) (rc : PacketRc) (h : .sent id k rc ∈ s.log) (hr : s.responder k = .canceled)

/-- What `recv_task` looks up is not in the map if and only if it is unclaimed. -/
theorem Rpc.lookup_iff (hR : s.Rpc) {c : ClientId} {cl : Client} {rc : PacketRc}
    {w : WrappedPacket (TowerPacket A B E)}
    {msgs : List Msg} {result : Except E B} {id : Id} (hc : s.clients c = some cl) (hr : s.recvTask c = true)
    (hm : s.net.buffer cl.inbox = .packet rc :: msgs) (hw : s.net.packets rc = some w)
    (hv : w.packet.value = .response (.complete result id)) :
    (s.responders c).lookup id = none ↔ s.Unclaimed c id := by
  obtain ⟨result', id', j, job, k, rc₀, hp, -, hrep, hid, hsent, hcall⟩ := hR.inbox hc hr hm hw
  rw [hp] at hv
  obtain ⟨rfl, rfl⟩ := TowerResponse.complete.inj (TowerPacket.response.inj hv)
  constructor
  · intro hnone
    cases hres : s.responder k with
    | none => exact absurd hres (hR.told.sent _ k rc₀ hsent).2.1
    | unsent =>
      -- its `Sender` is in the client, and neither in the channel nor in the map
      have hin := (hR.owned.owned c k).mpr ⟨hcall, hres⟩
      rcases List.mem_append.mp hin with hin | hin
      · exact absurd hin ((hR.told.sent _ k rc₀ hsent).2.2.1 c)
      · obtain ⟨⟨id₁, k₁⟩, hp₁, rfl⟩ := List.mem_map.mp hin
        obtain ⟨rc₁, h1⟩ := hR.told.entries c _ hp₁
        obtain rfl := hR.told.sentCall _ _ _ _ _ h1 hsent
        rcases List.mem_append.mp hp₁ with hp₁ | hp₁
        · cases ht : s.sendTask c with
          | sending id₂ k₂ =>
            rw [ht] at hp₁
            cases List.mem_singleton.mp hp₁
            exact .sending _ ht
          | _ => rw [ht] at hp₁; cases hp₁
        · have hne := List.lookup_eq_none_iff.mp hnone _ hp₁
          simp at hne
    | canceled => exact .canceled k rc₀ hsent hres
    | sent r =>
      cases hR.told.given k r hres with
      | errored id₁ kind h =>
        obtain ⟨-, rc₁, h1⟩ := hR.told.errored id₁ k kind h
        obtain rfl := hR.told.sentCall _ _ _ _ _ h1 hsent
        exact .errored k kind h
      | answered result₁ rc₁ h =>
        -- the answer of the same job has been received already
        obtain ⟨-, hgot, rc₂, j₁, job₁, h1, hrep₁⟩ := hR.told.answered k result₁ rc₁ h
        have hjj : j₁ = j := hR.job_unique hrep₁.ofJob hrep.ofJob (hR.told.sentCall _ _ _ _ _ h1 (hid ▸ hsent))
        subst hjj
        obtain ⟨-, rfl⟩ := hR.served.repliedOnce _ _ _ _ _ hrep₁.replied hrep.replied
        obtain ⟨net, hnet⟩ := hR.wired.receives (hR.wired.clientSocket c cl hc hr) (hR.wired.clientMade c cl hc) hm
        obtain ⟨-, hnew, -⟩ :=
          hR.wired.gets (hR.wired.clientSocket c cl hc hr) (hR.wired.clientMade c cl hc) hm hnet
        rw [hnew] at hgot
        exact absurd hgot (Nat.lt_irrefl 0)
  · intro h
    rw [Option.eq_none_iff_forall_ne_some]
    intro k₂ hk₂
    obtain ⟨l₁, l₂, hl, -⟩ := hR.owned.lookup hk₂
    have hmem : (id', k₂) ∈ s.responders c := by rw [hl]; simp
    obtain ⟨rc₂, h₂⟩ := hR.told.entries c _ (List.mem_append_right _ hmem)
    -- its `Sender` is in the map, unused
    have hunsent : s.responder k₂ = .unsent :=
      ((hR.owned.owned c k₂).mp
        (List.mem_append_right _ (List.mem_map_of_mem (f := Prod.snd) (List.mem_append_right _ hmem)))).2
    cases h with
    | sending k₁ h =>
      -- then the id would be there twice
      have hnd := hR.owned.keys c
      rw [entries, h, SendTask.entries, List.singleton_append, List.map_cons] at hnd
      have hid' : id' ∈ (s.responders c).map Prod.fst := List.mem_map_of_mem hmem
      exact (List.nodup_cons.mp hnd).1 hid'
    | errored k₁ kind h =>
      obtain ⟨h1, rc₁, h3⟩ := hR.told.errored _ k₁ kind h
      rw [(hR.told.sentId _ _ _ _ _ h3 h₂).1, hunsent] at h1
      cases h1
    | canceled k₁ rc₁ h h1 =>
      rw [(hR.told.sentId _ _ _ _ _ h h₂).1, hunsent] at h1
      cases h1

/-! ## Panics -/

/-- When a step panics. -/
inductive Panics (s : TowerCx A B E) : TowerLabel A B E → TowerPanic → Prop
  | newId (h : s.preNextGlobalId + 1 = 2 ^ 64) : Panics s .newId (.executor .idsExhausted)
  -- a client takes an id for its port, and one for each of its tasks
  | newClient (node : NodeId) (remote : Addr)
      (h : s.preNextGlobalId + 1 = 2 ^ 64 ∨ s.stopped node = false ∧ 2 ^ 64 ≤ s.preNextGlobalId + 3) :
      Panics s (.newClient node remote) (.executor .idsExhausted)
  | newClientStopped (node : NodeId) (remote : Addr) (hn : s.stopped node = true)
      (h : s.preNextGlobalId + 1 < 2 ^ 64) :
      Panics s (.newClient node remote) (.executor (.nodeIsStopped node))
  | serviceReady (v : ServerId) (sv : Server) (request : Request A) (hv : s.servers v = some sv)
      (hp : s.serverPhase v = .readying request) (hn : s.stopped sv.localAddr.node = false)
      (h : s.preNextGlobalId + 1 = 2 ^ 64) : Panics s (.serviceReady v (.ok ())) (.executor .idsExhausted)
  | serviceStopped (v : ServerId) (sv : Server) (request : Request A) (hv : s.servers v = some sv)
      (hp : s.serverPhase v = .readying request) (hn : s.stopped sv.localAddr.node = true) :
      Panics s (.serviceReady v (.ok ())) (.executor (.nodeIsStopped sv.localAddr.node))
  | sendId (c : ClientId) (cl : Client) (k : CallId) (call : Call A) (messages : List CallId)
      (outcome : SendOutcome)
      (hc : s.clients c = some cl) (hp : s.polled = some (.send c)) (hs : s.sendTask c = .receiving)
      (hm : s.messages c = k :: messages) (hk : s.calls k = some call) (h : s.preNextGlobalId + 1 = 2 ^ 64) :
      Panics s (.pollSend c outcome) (.executor .idsExhausted)
  | noRequest (c : ClientId) (cl : Client) (outcome : SendOutcome) (hc : s.clients c = some cl)
      (hp : s.polled = some (.send c)) (hs : s.sendTask c = .receiving) (hm : s.messages c = [])
        (hh : s.hungUp c = true) :
      Panics s (.pollSend c outcome) .noRequest
  | pollReady (c : ClientId) (hl : s.live c = true) (hs : s.sendTask c = .dropped) :
      Panics s (.pollReady c) .pollReady
  | responderMissing (c : ClientId) (cl : Client) (rc : PacketRc) (msgs : List Msg)
      (w : WrappedPacket (TowerPacket A B E))
      (result : Except E B) (id : Id) (hc : s.clients c = some cl) (hp : s.polled = some (.recv c))
      (hr : s.recvTask c = true) (hm : s.net.buffer cl.inbox = .packet rc :: msgs) (hw : s.net.packets rc = some w)
      (hv : w.packet.value = .response (.complete result id)) (hu : s.Unclaimed c id) :
      Panics s (.pollRecv c) .responderMissing
  | endPoll (c : ClientId) (cl : Client) (hc : s.clients c = some cl) (hp : s.polled = some (.recv c))
      (hb : s.net.buffer cl.inbox = []) (ha : s.aborted = true) : Panics s .endPoll (.executor .alreadyBorrowed)
  | dropClient (c : ClientId) (hl : s.live c = true) : Panics s (.dropClient c true) (.executor .alreadyBorrowed)
  | dropServer (v : ServerId) (sv : Server) (hv : s.servers v = some sv) (hr : s.runs v) :
      Panics s (.dropServer v true) (.executor .alreadyBorrowed)

section Panic

variable {X Y : Type} {p : TowerPanic}

theorem newId_eq_ok {pre : ℕ} (h : pre + 1 < 2 ^ 64) : Refault.newId pre = .ok (pre + 1) := by
  unfold Refault.newId
  rw [Nat.mod_eq_of_lt h]
  rfl

theorem spawn_eq_ok {node : NodeId} {id : Id} (hn : s.stopped node = false)
    (h : Refault.newId s.preNextGlobalId = .ok id) : s.spawn node = .ok { s with preNextGlobalId := id } := by
  unfold spawn
  rw [if_neg (by simp [hn]), newId_bind]
  exact ⟨id, h, rfl⟩

theorem newId_bind_panic (hW : s.Wired) {f : Id × TowerCx A B E → Except TowerHalt X} :
    (s.newId >>= f) = .error (.panic p) ↔ s.preNextGlobalId + 1 = 2 ^ 64 ∧ p = .executor .idsExhausted ∨
      ∃ id, Refault.newId s.preNextGlobalId = .ok id ∧ f (id, { s with preNextGlobalId := id }) =
      .error (.panic p) := by
  unfold newId
  cases h : Refault.newId s.preNextGlobalId with
  | error e =>
    obtain ⟨h1, rfl⟩ := (Exec.newId_panic hW.pre).mp h
    simp [Except.mapError, bind, Except.bind, h1, eq_comm]
  | ok id =>
    have h1 : s.preNextGlobalId + 1 ≠ 2 ^ 64 := fun h0 => by
      rw [(Exec.newId_panic hW.pre).mpr ⟨h0, rfl⟩] at h
      cases h
    rw [or_iff_right (fun h0 => h1 h0.1)]
    simp [Except.mapError, bind, Except.bind, pure, Except.pure]

theorem Wired.spawn_panic (hW : s.Wired) {node : NodeId} : s.spawn node = .error (.panic p) ↔
    s.stopped node = true ∧ p = .executor (.nodeIsStopped node) ∨
      s.stopped node = false ∧ s.preNextGlobalId + 1 = 2 ^ 64 ∧ p = .executor .idsExhausted := by
  unfold TowerCx.spawn
  split_ifs with hn
  · simp [panic, hn, eq_comm]
  · rw [newId_bind_panic hW]
    simp [hn, pure, Except.pure]

/-- The port of a new client is new, so that its address is not in use. -/
theorem Wired.openNew (hW : s.Wired) {node : NodeId} {id : Id} (hid : Refault.newId s.preNextGlobalId = .ok id) :
    ∃ r net, s.net.openSocket (⟨node, id⟩, responseTy) = .ok (r, net) := by
  obtain ⟨rfl, -⟩ := newId_ok hid hW.pre
  have hnone : s.net.inboxes (⟨node, s.preNextGlobalId + 1⟩, responseTy) = none := by
    refine Option.eq_none_iff_forall_ne_some.mpr fun r hr => ?_
    exact Nat.not_succ_le_self _ (hW.ports node _ r hr)
  unfold Net.openSocket
  rw [hnone]
  exact ⟨_, _, rfl⟩

theorem Wired.newClient_panic (hW : s.Wired) {node : NodeId} {remote : Addr} :
    s.newClient node remote = .error (.panic p) ↔ Panics s (.newClient node remote) p := by
  unfold TowerCx.newClient
  rw [newId_bind_panic hW]
  constructor
  · rintro (⟨h, rfl⟩ | ⟨id, hid, h⟩)
    · exact .newClient node remote (Or.inl h)
    · obtain ⟨rfl, hlt⟩ := newId_ok hid hW.pre
      dsimp only at h
      split at h
      · rename_i e ho
        obtain ⟨r, net, ho'⟩ := hW.openNew hid
        exact absurd (ho.symm.trans ho') (by simp)
      · rename_i r net ho
        have hW₁ := (hW.opened (Nat.le_succ _) hlt (fun _ => le_rfl) ho).1
        rcases Except.bind_eq_error_iff.mp h with h | ⟨m, hm, h⟩
        · rcases hW₁.spawn_panic.mp h with ⟨hn, rfl⟩ | ⟨hn, h0, rfl⟩
          · exact .newClientStopped node remote hn hlt
          · have h0 : s.preNextGlobalId + 1 + 1 = 2 ^ 64 := h0
            exact .newClient node remote (Or.inr ⟨hn, by omega⟩)
        · obtain ⟨hn, id₁, hid₁, rfl⟩ := spawn_ok hm
          obtain ⟨rfl, -⟩ := newId_ok hid₁ hW₁.pre
          rcases Except.bind_eq_error_iff.mp h with h | ⟨m, hm, h⟩
          · rcases (hW₁.newId hid₁).spawn_panic.mp h with ⟨hn', -⟩ | ⟨-, h0, rfl⟩
            · exact absurd (hn.symm.trans hn') (by simp)
            · have h0 : s.preNextGlobalId + 1 + 1 + 1 = 2 ^ 64 := h0
              exact .newClient node remote (Or.inr ⟨hn, by omega⟩)
          · cases h
  · intro h
    by_cases h1 : s.preNextGlobalId + 1 = 2 ^ 64
    · cases h with
      | newClient _ _ _ => exact Or.inl ⟨h1, rfl⟩
      | newClientStopped _ _ _ h => exact absurd h1 h.ne
    · have hpre := hW.pre
      have hlt : s.preNextGlobalId + 1 < 2 ^ 64 := by omega
      have hid := newId_eq_ok hlt
      obtain ⟨r, net, ho⟩ : ∃ r net, s.net.openSocket (⟨node, s.preNextGlobalId + 1⟩, responseTy) = .ok (r, net) :=
        hW.openNew hid
      have hW₁ := (hW.opened (Nat.le_succ _) hlt (fun _ => le_rfl) ho).1
      refine Or.inr ⟨_, hid, ?_⟩
      dsimp only
      rw [show ({ s with preNextGlobalId := s.preNextGlobalId + 1 } : TowerCx A B E).net.openSocket
        (⟨node, s.preNextGlobalId + 1⟩, responseTy) = .ok (r, net) from ho]
      dsimp only
      cases h with
      | newClientStopped _ _ hn h =>
        exact Except.bind_eq_error_iff.mpr (Or.inl (hW₁.spawn_panic.mpr (Or.inl ⟨hn, rfl⟩)))
      | newClient _ _ h =>
        obtain ⟨hn, h⟩ := h.resolve_left h1
        by_cases h2 : s.preNextGlobalId + 1 + 1 = 2 ^ 64
        · exact Except.bind_eq_error_iff.mpr (Or.inl (hW₁.spawn_panic.mpr (Or.inr ⟨hn, h2, rfl⟩)))
        · have hlt₁ : s.preNextGlobalId + 1 + 1 < 2 ^ 64 := by omega
          have h3 : s.preNextGlobalId + 1 + 1 + 1 = 2 ^ 64 := by omega
          refine Except.bind_eq_error_iff.mpr (Or.inr ⟨_, spawn_eq_ok hn (newId_eq_ok hlt₁), ?_⟩)
          have hW₂ := hW₁.newId (newId_eq_ok hlt₁)
          exact Except.bind_eq_error_iff.mpr (Or.inl (hW₂.spawn_panic.mpr (Or.inr ⟨hn, h3, rfl⟩)))

theorem Rpc.pollSend_panic (hR : s.Rpc) {c : ClientId} {outcome : SendOutcome} :
    s.pollSend c outcome = .error (.panic p) ↔ Panics s (.pollSend c outcome) p := by
  constructor
  · intro h
    unfold pollSend at h
    split at h
    · cases h
    · rename_i cl hc
      split at h
      swap
      · cases h
      · rename_i hp
        split at h
        · rename_i hs
          split at h
          · rename_i hm
            split_ifs at h with hh
            · cases h
              exact .noRequest c cl outcome hc hp hs hm hh
            · cases h
          · rename_i k messages hm
            split at h
            · cases h
            · rename_i call hk
              rcases (newId_bind_panic hR.wired).mp h with ⟨h0, rfl⟩ | ⟨id, hid, h0⟩
              · exact .sendId c cl k call messages outcome hc hp hs hm hk h0
              · cases h0
        · cases h
        · cases h
  · intro h
    cases h with
    | sendId c cl k call messages outcome hc hp hs hm hk h =>
      unfold pollSend
      simp only [hc, hp, if_true, hs, hm, hk]
      exact (newId_bind_panic hR.wired).mpr (Or.inl ⟨h, rfl⟩)
    | noRequest c cl outcome hc hp hs hm hh =>
      unfold pollSend
      simp only [hc, hp, if_true, hs, hm, hh]
      rfl

/-- A poll of `recv_task` when there is a packet in its inbox. -/
theorem Rpc.pollRecv_packet (hR : s.Rpc) {c : ClientId} {cl : Client} {rc : PacketRc}
    {w : WrappedPacket (TowerPacket A B E)}
    {msgs : List Msg} (hc : s.clients c = some cl) (hp : s.polled = some (.recv c)) (hr : s.recvTask c = true)
    (hm : s.net.buffer cl.inbox = .packet rc :: msgs) (hw : s.net.packets rc = some w) :
    ∃ result id, w.packet.value = .response (.complete result id) ∧
      ((s.responders c).lookup id = none ∧ s.pollRecv c = panic .responderMissing ∨
        (s.responders c).lookup id ≠ none ∧ ∃ s', s.pollRecv c = .ok s') := by
  obtain ⟨net, hnet⟩ := hR.wired.receives (hR.wired.clientSocket c cl hc hr) (hR.wired.clientMade c cl hc) hm
  obtain ⟨-, hwire⟩ := hR.wired.client_receive hc hr hnet
  have hpackets : net.packets rc = some w := (congrFun (congrArg Net.Wiring.packets hwire) rc).trans hw
  obtain ⟨result, id, j, job, k, rc₀, hpacket, hsrc, -⟩ := hR.inbox hc hr hm hw
  obtain ⟨header, packet⟩ := w
  obtain rfl : packet = ⟨responseTy, .response (.complete result id)⟩ := hpacket
  have hsrc : header.src = cl.remote := hsrc
  refine ⟨result, id, rfl, ?_⟩
  unfold pollRecv
  simp only [hc, hp, hr, and_self, if_true, hm]
  rw [show (s.net.receive cl.inbox).pollReceive cl.inbox responseTy none = .ok net from hnet]
  simp only [inNet, Except.mapError, bind, Except.bind, hpackets, hsrc, if_true]
  cases (s.responders c).lookup id with
  | none => exact Or.inl ⟨rfl, rfl⟩
  | some k => exact Or.inr ⟨by simp, _, rfl⟩

theorem Rpc.pollRecv_panic (hR : s.Rpc) {c : ClientId} : s.pollRecv c = .error (.panic p) ↔
    Panics s (.pollRecv c) p := by
  constructor
  · intro h
    have h0 := h
    unfold pollRecv at h
    split at h
    · cases h
    · rename_i cl hc
      split at h
      swap
      · cases h
      · rename_i hrs
        obtain ⟨hp, hr⟩ := hrs
        split at h
        · cases h
        · rename_i msg msgs hm
          obtain ⟨net, hnet⟩ :=
            hR.wired.receives (hR.wired.clientSocket c cl hc hr) (hR.wired.clientMade c cl hc) hm
          cases msg with
          | error kind =>
            rw [show (s.net.receive cl.inbox).pollReceive cl.inbox responseTy none = .ok net from hnet] at h
            cases h
          | packet rc =>
            obtain ⟨⟨w, hw, -⟩, -⟩ :=
              hR.wired.gets (hR.wired.clientSocket c cl hc hr) (hR.wired.clientMade c cl hc) hm hnet
            obtain ⟨result, id, hv, ⟨hnone, hpanic⟩ | ⟨-, s', hok⟩⟩ := hR.pollRecv_packet hc hp hr hm hw
            · cases hpanic.symm.trans h0
              exact .responderMissing c cl rc msgs w result id hc hp hr hm hw hv
                ((hR.lookup_iff hc hr hm hw hv).mp hnone)
            · cases hok.symm.trans h0
  · intro h
    cases h with
    | responderMissing c cl rc msgs w result id hc hp hr hm hw hv hu =>
      obtain ⟨result', id', hv', h⟩ := hR.pollRecv_packet hc hp hr hm hw
      rw [hv] at hv'
      obtain ⟨rfl, rfl⟩ := TowerResponse.complete.inj (TowerPacket.response.inj hv')
      have hnone := (hR.lookup_iff hc hr hm hw hv).mpr hu
      rcases h with ⟨-, h⟩ | ⟨hne, -⟩
      · exact h
      · exact absurd hnone hne

theorem Rpc.pollServer_ok (hR : s.Rpc) {v : ServerId} : s.pollServer v ≠ .error (.panic p) := by
  unfold pollServer
  split
  · rename_i sv hv hp
    split
    · simp
    · rename_i msg msgs hm
      obtain ⟨net, hnet⟩ :=
        hR.wired.receives (hR.wired.serverSocket v sv hv (Or.inl hp)) (hR.wired.serverMade v sv hv) hm
      obtain ⟨ha, hwire⟩ := hR.wired.server_receive hv (Or.inl hp) hnet
      rw [show (s.net.receive sv.inbox).pollReceive sv.inbox requestTy none = .ok net from hnet]
      cases msg with
      | error kind => exact (hR.wired.passed ha hwire).serverEnds_ok hv (Or.inl hp)
      | packet rc =>
        simp only [inNet, Except.mapError, bind, Except.bind]
        split <;> simp [pure, Except.pure]
  · simp

theorem netEvent_ok {n : Net (TowerPacket A B E)} {e : NetEvent} : netEvent n e ≠ .error (.panic p) := by
  cases e with
  | enqueuePacket id t rc =>
    simp only [netEvent]
    split
    · simp
    · split_ifs <;> simp
  | dropPacket rc =>
    simp only [netEvent]
    split_ifs <;> simp
  | enqueueError id t dst ty kind =>
    simp only [netEvent]
    split_ifs <;> simp
  | deliver id now | abortDelivery id | drain key =>
    simp only [netEvent]
    split <;> simp

/-- What goes on in the future of a call never panics. -/
theorem pollCall_ok {k : CallId} : s.pollCall k ≠ .error (.panic p) := by
  unfold pollCall
  split
  · simp
  · split
    · split_ifs <;> simp
    · split_ifs <;> simp
    · simp
    · simp
    · simp

theorem Rpc.serviceReady_panic (hR : s.Rpc) {v : ServerId} {r : Except E Unit} :
    s.serviceReady v r = .error (.panic p) ↔ Panics s (.serviceReady v r) p := by
  unfold serviceReady
  split
  · rename_i sv request hv hp
    cases r with
    | error e => exact iff_of_false (hR.wired.serverEnds_ok hv (Or.inr ⟨request, hp⟩)) (by rintro ⟨⟩)
    | ok u =>
      refine ⟨fun h => ?_, fun h => ?_⟩
      · rcases Except.bind_eq_error_iff.mp h with h | ⟨m, -, h⟩
        · rcases hR.wired.spawn_panic.mp h with ⟨hn, rfl⟩ | ⟨hn, h0, rfl⟩
          · exact .serviceStopped v sv request hv hp hn
          · exact .serviceReady v sv request hv hp hn h0
        · cases h
      · refine Except.bind_eq_error_iff.mpr (Or.inl (hR.wired.spawn_panic.mpr ?_))
        cases h with
        | serviceReady _ sv' request' hv' hp' hn h =>
          obtain rfl := Option.some.inj (hv.symm.trans hv')
          exact Or.inr ⟨hn, h, rfl⟩
        | serviceStopped _ sv' request' hv' hp' hn =>
          obtain rfl := Option.some.inj (hv.symm.trans hv')
          exact Or.inl ⟨hn, rfl⟩
  · rename_i hno
    refine iff_of_false (by simp) fun h => ?_
    cases h with
    | serviceReady _ sv request hv hp hn h => exact hno sv request hv hp
    | serviceStopped _ sv request hv hp hn => exact hno sv request hv hp

theorem endPoll_panic : s.endPoll = .error (.panic p) ↔ Panics s .endPoll p := by
  constructor
  · intro h
    unfold endPoll at h
    split at h
    · cases h
    · split_ifs at h
      cases h
    · rename_i c hp
      split at h
      · cases h
      · rename_i cl hc
        split_ifs at h with hb ha
        · cases h
        · cases h
          exact .endPoll c cl hc hp (not_not.mp hb) ha
  · intro h
    cases h with
    | endPoll c cl hc hp hb ha =>
      unfold endPoll
      simp [hp, hc, hb, ha, panic]

/-- **The panics.**  These, and no other `unwrap` or assertion of `Client`, of `run_server` or of the sockets
they use. -/
theorem panics_iff (hr : Reachable s) {l : TowerLabel A B E} : s.step l = .error (.panic p) ↔ Panics s l p := by
  have hR := hr.rpc
  have never : ∀ {l}, s.step l ≠ .error (.panic p) → ¬Panics s l p →
      (s.step l = .error (.panic p) ↔ Panics s l p) :=
    fun h h' => iff_of_false h h'
  cases l with
  | newClient node remote => exact hR.wired.newClient_panic
  | newId =>
    refine ((newId_bind_panic hR.wired).trans ⟨?_, fun h => ?_⟩)
    · rintro (⟨h, rfl⟩ | ⟨id, -, h⟩)
      · exact .newId h
      · cases h
    · cases h with
      | newId h => exact Or.inl ⟨h, rfl⟩
  | pollReady c =>
    simp only [step, pollReady]
    constructor
    · intro h
      split_ifs at h with hl ho
      · cases h
        exact .pollReady c hl (by simpa [isOpen] using ho)
      · cases h
    · intro h
      cases h with
      | pollReady _ hl hs => simp [hl, isOpen, hs, panic]
  | pollSend c outcome => exact hR.pollSend_panic
  | pollRecv c => exact hR.pollRecv_panic
  | call c req =>
    refine never ?_ (by rintro ⟨⟩)
    simp only [step, call]
    split_ifs <;> simp
  | pollCall k => exact never pollCall_ok (by rintro ⟨⟩)
  | dropCall k =>
    refine never ?_ (by rintro ⟨⟩)
    simp only [step, dropCall]
    split
    · simp
    · split <;> simp
  | dropClient c borrowed =>
    refine hR.wired.dropClient_panic.trans ⟨?_, fun h => ?_⟩
    · rintro ⟨hl, rfl, rfl⟩
      exact .dropClient c hl
    · cases h with
      | dropClient _ hl => exact ⟨hl, rfl, rfl⟩
  | pollTask t =>
    refine never ?_ (by rintro ⟨⟩)
    simp only [step, pollTask]
    split_ifs <;> simp
  | endPoll => exact endPoll_panic
  | abort t => exact never hR.wired.abort_never (by rintro ⟨⟩)
  | runServer node port =>
    refine never ?_ (by rintro ⟨⟩)
    simp only [step, runServer]
    split <;> simp
  | pollServer v => exact never hR.pollServer_ok (by rintro ⟨⟩)
  | serviceReady v r => exact hR.serviceReady_panic
  | dropServer v borrowed =>
    refine hR.wired.dropServer_panic.trans ⟨?_, fun h => ?_⟩
    · rintro ⟨⟨sv, hv⟩, hr, rfl, rfl⟩
      exact .dropServer v sv hv hr
    · cases h with
      | dropServer _ sv hv hr => exact ⟨⟨sv, hv⟩, hr, rfl, rfl⟩
  | complete j result outcome =>
    refine never ?_ (by rintro ⟨⟩)
    simp only [step, complete]
    split <;> simp
  | pollJob j =>
    refine never ?_ (by rintro ⟨⟩)
    simp only [step, pollJob]
    split <;> simp
  | dropJob j =>
    refine never ?_ (by rintro ⟨⟩)
    simp only [step, dropJob]
    split <;> simp
  | net e =>
    refine never (fun h => ?_) (by rintro ⟨⟩)
    rcases Except.bind_eq_error_iff.mp h with h | ⟨net, -, h⟩
    · exact netEvent_ok h
    · cases h
  | stopNode node | startNode node => exact never (by simp [step]) (by rintro ⟨⟩)

end Panic

/-- The answer to a request arrives before the future of `net.send` is ready. -/
def earlyRun : List (TowerLabel ℕ ℕ ℕ) :=
  [.runServer 2 7, .newClient 1 ⟨2, 7⟩, .call 0 5, .pollCall 0, .pollTask (.send 0), .pollSend 0 .pending,
    .endPoll, .net (.enqueuePacket 90 SimCx.fiveSeconds 0), .net (.deliver 90 SimCx.fiveSeconds),
    .pollServer 0, .serviceReady 0 (.ok ()), .complete 0 (.ok 6) (.ready (.ok ())),
    .net (.enqueuePacket 91 SimCx.fiveSeconds 1), .net (.deliver 91 SimCx.fiveSeconds), .pollTask (.recv 0)]

theorem panics_iff_early : ∃ s : TowerCx ℕ ℕ ℕ, Machine.run step install earlyRun = .ok s ∧
    s.step (.pollRecv 0) = .error (.panic .responderMissing) ∧ Panics s (.pollRecv 0) .responderMissing := by
  obtain ⟨s, hs, hq⟩ : ∃ s : TowerCx ℕ ℕ ℕ, Machine.run step install earlyRun = .ok s ∧
      (s.step (.pollRecv 0)).map (fun _ => ()) = .error (.panic .responderMissing) :=
        Machine.exists_of_run (by decide +kernel)
  have hst : s.step (.pollRecv 0) = .error (.panic .responderMissing) := by
    cases h : s.step (.pollRecv 0) with
    | error e => rw [h] at hq; cases hq; rfl
    | ok m => rw [h] at hq; cases hq
  exact ⟨s, hs, hst, (panics_iff ⟨_, hs⟩).mp hst⟩

/-! ## What `recv_task` takes -/

/-- If the step is a poll of `recv_task`, the next message in its inbox is not an unclaimed response. -/
def Claimed (s : TowerCx A B E) : TowerLabel A B E → Prop
  | .pollRecv c => ∀ cl rc msgs w result id, s.clients c = some cl → s.polled = some (.recv c) →
      s.recvTask c = true → s.net.buffer cl.inbox = .packet rc :: msgs → s.net.packets rc = some w →
      w.packet.value = .response (.complete result id) → ¬s.Unclaimed c id
  | _ => True

theorem Rpc.pollRecv_claimed (hR : s.Rpc) {c : ClientId} :
    (∀ p, s.pollRecv c ≠ .error (.panic p)) ↔ s.Claimed (.pollRecv c) := by
  constructor
  · intro h cl rc msgs w result id hc hp hr hm hw hv hu
    exact h _ (hR.pollRecv_panic.mpr (.responderMissing c cl rc msgs w result id hc hp hr hm hw hv hu))
  · intro h p hpanic
    cases hR.pollRecv_panic.mp hpanic with
    | responderMissing _ cl rc msgs w result id hc hp hr hm hw hv hu =>
      exact h cl rc msgs w result id hc hp hr hm hw hv hu

/-- The step is no poll of `recv_task` that panics. -/
def Receives (s : TowerCx A B E) (l : TowerLabel A B E) : Prop :=
  ∀ c p, l = .pollRecv c → s.step l ≠ .error (.panic p)

/-- **`recv_task` panics on an unclaimed response.**  In a run no poll of a `recv_task` panics if and only if each
response it takes is claimed: `net.send` has answered for the request, the call was told of no error, and
`send_task` was not dropped with the `Sender`. -/
theorem recv_task_never_panics_iff (ls : List (TowerLabel A B E)) :
    Machine.Along step Receives install ls ↔ Machine.Along step Claimed install ls := by
  rw [Machine.along_iff, Machine.along_iff]
  have hstep : ∀ {m : TowerCx A B E} {l}, Reachable m → (m.Receives l ↔ m.Claimed l) := by
    intro m l hm
    cases l with
    | pollRecv c =>
      refine Iff.trans ⟨fun h p => h c p rfl, ?_⟩ hm.rpc.pollRecv_claimed
      rintro h _ p ⟨⟩
      exact h p
    | _ => exact iff_of_true (by rintro c p ⟨⟩) trivial
  exact ⟨fun h ls₁ l ls₂ m hls hr => (hstep ⟨ls₁, hr⟩).mp (h ls₁ l ls₂ m hls hr),
    fun h ls₁ l ls₂ m hls hr => (hstep ⟨ls₁, hr⟩).mpr (h ls₁ l ls₂ m hls hr)⟩

/-- An error for the client's socket comes before the answer, and empties the map. -/
def clearedRun : List (TowerLabel ℕ ℕ ℕ) :=
  [.runServer 2 7, .newClient 1 ⟨2, 7⟩, .call 0 5, .pollCall 0, .pollTask (.send 0),
    .pollSend 0 (.ready (.ok ())), .endPoll, .net (.enqueuePacket 90 SimCx.fiveSeconds 0),
    .net (.deliver 90 SimCx.fiveSeconds), .pollServer 0, .serviceReady 0 (.ok ()),
    .complete 0 (.ok 6) (.ready (.ok ())),
    .net (.enqueueError 91 SimCx.fiveSeconds ⟨1, 1⟩ responseTy .connectionReset),
    .net (.deliver 91 SimCx.fiveSeconds), .net (.enqueuePacket 92 SimCx.fiveSeconds 1),
    .net (.deliver 92 SimCx.fiveSeconds), .pollTask (.recv 0), .pollRecv 0]

/-- `recv_task` panics. -/
theorem recv_task_panics : ¬∀ ls : List (TowerLabel ℕ ℕ ℕ), Machine.Along step Receives install ls := by
  obtain ⟨s, hs, hq⟩ : ∃ s : TowerCx ℕ ℕ ℕ, Machine.run step install clearedRun = .ok s ∧
      (s.step (.pollRecv 0)).map (fun _ => ()) = .error (.panic .responderMissing) :=
        Machine.exists_of_run (by decide +kernel)
  intro h
  refine Machine.along_iff.mp (h (clearedRun ++ [.pollRecv 0])) clearedRun (.pollRecv 0) [] s rfl hs 0
    .responderMissing rfl ?_
  cases hst : s.step (.pollRecv 0) with
  | error e => rw [hst] at hq; cases hq; rfl
  | ok m => rw [hst] at hq; cases hq

/-! ## Sending at once -/

/-- The futures of `net.send` in the clients answer `Ok` in the poll in which they are made, and no error is
enqueued for a client. -/
def Direct (s : TowerCx A B E) : TowerLabel A B E → Prop
  | .pollSend _ outcome => ∀ kind, outcome ≠ .ready (.error kind)
  | .endPoll => ∀ c id k, s.polled = some (.send c) → s.sendTask c ≠ .sending id k
  | .net (.enqueueError _ _ _ ty _) => ty ≠ responseTy
  | _ => True

/-- A request is only being sent in a poll of its `send_task`, no call was told of an error, and no request
that was sent has lost its `Sender` as long as there is a `recv_task`. -/
structure Prompt (s : TowerCx A B E) : Prop where
  idle : ∀ c id k, s.sendTask c = .sending id k → s.polled = some (.send c)
  calm : ∀ id k kind, ¬s.Errored id k kind
  kept : ∀ c id k rc, .sent id k rc ∈ s.log → s.CallOf c k → s.recvTask c = true → s.responder k ≠ .canceled
  clean : s.net.Clean responseTy

namespace Prompt

/-- What a step has to leave: it drops no `Sender` of a request that was sent before. -/
theorem keep (hP : s.Prompt) (hidle : ∀ c id k, s'.sendTask c = .sending id k → s'.polled = some (.send c))
    (hcalm : ∀ id k kind, s'.Errored id k kind → s.Errored id k kind)
    (hkept : ∀ c id k rc, .sent id k rc ∈ s'.log → s'.CallOf c k → s'.recvTask c = true →
      s'.responder k = .canceled →
      .sent id k rc ∈ s.log ∧ s.CallOf c k ∧ s.recvTask c = true ∧ s.responder k = .canceled)
    (hclean : s'.net.Clean responseTy) : s'.Prompt where
  idle := hidle
  calm id k kind h := hP.calm id k kind (hcalm id k kind h)
  kept c id k rc h hk hr hc := by
    obtain ⟨h1, h2, h3, h4⟩ := hkept c id k rc h hk hr hc
    exact hP.kept c id k rc h1 h2 h3 h4
  clean := hclean

/-- Clients and calls are left as they are, and only the net is changed. -/
theorem inNet (hP : s.Prompt) (hsend : s'.sendTask = s.sendTask) (hp : s'.polled = s.polled)
    (hlog : s'.log = s.log)
    (hcalls : s'.calls = s.calls) (hrecv : s'.recvTask = s.recvTask) (hr : s'.responder = s.responder)
    (hclean : s'.net.Clean responseTy) : s'.Prompt := by
  refine hP.keep (fun c id k h => ?_) (fun id k kind h => ?_) (fun c id k rc h1 h2 h3 h4 => ?_) hclean
  · rw [hp]
    exact hP.idle c id k (congrFun hsend c ▸ h)
  · unfold Errored at h ⊢
    rwa [hlog] at h
  · unfold CallOf at h2 ⊢
    rw [hlog] at h1
    rw [hcalls] at h2
    rw [hrecv] at h3
    rw [hr] at h4
    exact ⟨h1, h2, h3, h4⟩

/-- Nothing is put into the net. -/
theorem still {n n' : Net (TowerPacket A B E)} (hC : n.Clean responseTy) (hR : n.Registry) (hT : n.Typed)
    (h : Net.Act n n') (hf : n'.inFlight = n.inFlight) : n'.Clean responseTy :=
  hC.act hR hT h fun _ _ _ hd _ _ => hf ▸ hd

theorem receive (hP : s.Prompt) (hR : s.Rpc) {r : InboxRc} {key : Key} {net : Net (TowerPacket A B E)}
    (hs : s.net.sockets r ≠ none) (hk : s.net.created r = some key)
    (h : (s.net.receive r).pollReceive r key.2 none = .ok net) : net.Clean responseTy := by
  have ha : Net.Act s.net (s.net.receive r) := .receive r hs
  refine still (still hP.clean hR.wired.registry hR.wired.typed ha rfl) (hR.wired.registry.act ha)
    (hR.wired.typed.act hR.wired.registry ha) (.pollReceive r key none net (by simp) hk h) ?_
  exact NetCx.pollReceive_frame (·.inFlight) (fun _ _ => rfl) (fun _ _ _ => rfl) (fun _ _ => rfl)
    (fun _ => Net.collect_inFlight _ _) h

theorem closed (hP : s.Prompt) (hR : s.Rpc) {r : InboxRc} {key : Key} {net : Net (TowerPacket A B E)}
    (hs : s.net.sockets r ≠ none) (hk : s.net.created r = some key)
    (h : s.net.dropSocket r ⟨key.1, key.2⟩ = .ok net) : net.Clean responseTy := by
  refine still hP.clean hR.wired.registry hR.wired.typed (.dropSocket r _ net (hR.wired.socket hs hk) h) ?_
  unfold Net.dropSocket at h
  split_ifs at h
  cases h
  exact Net.collect_inFlight _ _

theorem opened (hP : s.Prompt) (hR : s.Rpc) {r : InboxRc} {key : Key} {net : Net (TowerPacket A B E)}
    (h : s.net.openSocket key = .ok (r, net)) : net.Clean responseTy := by
  refine still hP.clean hR.wired.registry hR.wired.typed (.openSocket key r net hR.wired.dropped h) ?_
  unfold Net.openSocket at h
  split at h
  · cases h
  · cases h
    rfl

/-- The map of a client goes with its `recv_task`, or after it. -/
theorem dropRecv (hP : s.Prompt) (hR : s.Rpc) {c : ClientId} (hr : s.recvTask c = true)
    (h : s.dropRecv c = .ok s') : s'.Prompt := by
  obtain ⟨cl, net, hc, hnet, rfl⟩ := dropRecv_ok h
  have h0 := hP.closed hR (hR.wired.clientSocket c cl hc hr) (hR.wired.clientMade c cl hc) hnet
  have hrecv : ∀ {c'}, Function.update s.recvTask c false c' = true → c' ≠ c ∧
      s.recvTask c' = true := fun {c'} h => by
    by_cases h1 : c' = c
    · subst h1
      simp at h
    · exact ⟨h1, by simpa [h1] using h⟩
  split
  · exact hP.keep hP.idle (fun _ _ _ h => h) (fun c' id k rc h1 h2 h3 h4 => ⟨h1, h2, (hrecv h3).2, h4⟩) h0
  · refine hP.keep hP.idle (fun _ _ _ h => h) (fun c' id k rc h1 h2 h3 h4 => ⟨h1, h2, (hrecv h3).2, ?_⟩) h0
    -- those of the other clients are elsewhere
    have hout : k ∉ (s.responders c).map Prod.snd := fun hin => by
      have hin' : k ∈ s.senders c := by
        simp only [senders, entries, List.map_append]
        exact List.mem_append_right _ (List.mem_append_right _ hin)
      exact (hrecv h3).1 (callOf_unique h2 ((hR.owned.owned c k).mp hin').1)
    exact (if_neg hout).symm.trans h4

/-- `send_task` is dropped when it does not send. -/
theorem dropSend (hP : s.Prompt) (hR : s.Rpc) {c : ClientId} (hs : ∀ id k, s.sendTask c ≠ .sending id k) :
    (s.dropSend c).Prompt := by
  have hentries : (s.sendTask c).entries = [] := by
    cases h : s.sendTask c with
    | sending id k => exact absurd h (hs id k)
    | _ => rfl
  rw [dropSend_eq]
  refine hP.keep (fun c' id k h => ?_) (fun _ _ _ h => h) (fun c' id k rc h1 h2 h3 h4 => ⟨h1, h2, h3, ?_⟩) hP.clean
  · by_cases h0 : c' = c
    · subst h0
      simp at h
    · exact hP.idle c' id k (by simpa [h0] using h)
  · have hout : k ∉ s.cutOff c := fun hin => by
      have hcc : c' = c := callOf_unique h2 ((hR.owned.owned c k).mp (cutOff_sublist.subset hin)).1
      subst hcc
      have hr : s.recvTask c' = true := h3
      -- it would be in the channel
      rw [cutOff, hentries, hr, if_pos rfl] at hin
      exact (hR.told.sent id k rc h1).2.2.1 c' (by simpa using hin)
    exact (if_neg hout).symm.trans h4

/-- Sending through a `Sender` drops none. -/
theorem canceled_of_send {ks : List CallId} {k : CallId} {r : TowerResult B E}
    (h : (s.onResponders ks (.send r)).responder k = .canceled) : s.responder k = .canceled := by
  unfold onResponders at h
  dsimp only at h
  split at h
  · cases hk : s.responder k with
    | canceled => rfl
    | _ => rw [hk] at h; cases h
  · exact h

theorem abort (hP : s.Prompt) (hR : s.Rpc) {t : ClientTask} (h : s.abort t = .ok s') : s'.Prompt := by
  unfold TowerCx.abort at h
  split_ifs at h with ht hp
  · cases h
    exact hP.inNet rfl rfl rfl rfl rfl rfl hP.clean
  · cases t with
    | send c =>
      cases h
      exact hP.dropSend hR fun id k hs => hp (hP.idle c id k hs)
    | recv c => exact hP.dropRecv hR ht h
  · cases h
    exact hP

theorem dropClient (hP : s.Prompt) (hR : s.Rpc) {c : ClientId} {borrowed : Bool}
    (h : s.dropClient c borrowed = .ok s') : s'.Prompt := by
  unfold TowerCx.dropClient at h
  split_ifs at h
  · cases h
  · obtain ⟨m, hm, h⟩ := Except.bind_eq_ok_iff.mp h
    obtain ⟨s₁, h₁, rfl⟩ := abort_live hm
    obtain ⟨s₂, h₂, rfl⟩ := abort_live h
    exact ((hP.abort hR h₁).abort (hR.acts (abort_ok h₁).acts) h₂).inNet rfl rfl rfl rfl rfl rfl
      ((hP.abort hR h₁).abort (hR.acts (abort_ok h₁).acts) h₂).clean

theorem endPoll (hP : s.Prompt) (hR : s.Rpc) (hl : Direct s (.endPoll : TowerLabel A B E))
    (h : s.endPoll = .ok s') : s'.Prompt := by
  -- no request is left
  have hidle : ∀ c id k, s.sendTask c ≠ .sending id k := fun c id k hs => hl c id k (hP.idle c id k hs) hs
  have hend : ({ s with polled := none } : TowerCx A B E).Prompt :=
    hP.keep (fun c id k h => absurd h (hidle c id k)) (fun _ _ _ h => h)
      (fun _ _ _ _ h1 h2 h3 h4 => ⟨h1, h2, h3, h4⟩) hP.clean
  unfold TowerCx.endPoll at h
  split at h
  · cases h
  · rename_i c hp
    split_ifs at h with hw ha
    · cases h
      have hd : (s.dropSend c).Prompt := hP.dropSend hR (hidle c)
      refine hd.keep (fun c' id k h => ?_) (fun _ _ _ h => h)
        (fun _ _ _ _ h1 h2 h3 h4 => ⟨h1, h2, h3, h4⟩) hd.clean
      have h' : (s.dropSend c).sendTask c' = .sending id k := h
      rw [dropSend_sendTask] at h'
      by_cases h0 : c' = c
      · subst h0
        simp at h'
      · exact absurd (by simpa [h0] using h') (hidle c' id k)
    · cases h
      exact hend
  · split at h
    · cases h
    · split_ifs at h
      · cases h
      · cases h
        exact hend

theorem serverEnds (hP : s.Prompt) (hR : s.Rpc) {v : ServerId} {sv : Server} {phase : ServerPhase A E}
    (hv : s.servers v = some sv) (hr : s.runs v) (h : s.serverEnds v sv phase = .ok s') : s'.Prompt := by
  obtain ⟨net, hnet, h⟩ := inNet_bind.mp h
  cases h
  exact hP.inNet rfl rfl rfl rfl rfl rfl
    (hP.closed hR (hR.wired.serverSocket v sv hv hr) (hR.wired.serverMade v sv hv) hnet)

theorem awaitResponder (hP : s.Prompt) (k : CallId) : (s.awaitResponder k).Prompt := by
  unfold TowerCx.awaitResponder
  split <;> exact hP.inNet rfl rfl rfl rfl rfl rfl hP.clean

theorem pollCall (hP : s.Prompt) {k : CallId} (h : s.pollCall k = .ok s') : s'.Prompt := by
  unfold TowerCx.pollCall at h
  split at h
  · cases h
  · split at h
    · split_ifs at h <;> cases h
      · refine hP.keep hP.idle (fun _ _ _ h => h) (fun c id k' rc h1 h2 h3 h4 => ⟨h1, h2, h3, ?_⟩) hP.clean
        by_cases h0 : k' = k
        · subst h0
          simp at h4
        · simpa [h0] using h4
      · exact hP.inNet rfl rfl rfl rfl rfl rfl hP.clean
    · split_ifs at h <;> cases h
      · exact hP
      · exact hP.awaitResponder k
    · cases h
      exact hP.awaitResponder k
    · cases h
    · cases h

theorem sendPolled (hP : s.Prompt) {c : ClientId} {id : Id} {k : CallId} {outcome : SendOutcome}
    (ho : ∀ kind, outcome ≠ .ready (.error kind)) : (s.sendPolled c id k outcome).Prompt := by
  cases outcome with
  | pending => exact hP
  | ready r =>
    cases r with
    | error kind => exact absurd rfl (ho kind)
    | ok u =>
      refine hP.keep (fun c' id' k' h => ?_) (fun _ _ _ h => h)
        (fun _ _ _ _ h1 h2 h3 h4 => ⟨h1, h2, h3, h4⟩) hP.clean
      by_cases h0 : c' = c
      · subst h0
        simp [TowerCx.sendPolled] at h
      · exact hP.idle c' id' k' (by simpa [TowerCx.sendPolled, h0] using h)

theorem pollSend (hP : s.Prompt) (hR : s.Rpc) {c : ClientId} {outcome : SendOutcome}
    (ho : ∀ kind, outcome ≠ .ready (.error kind)) (h : s.pollSend c outcome = .ok s') : s'.Prompt := by
  unfold TowerCx.pollSend at h
  split at h
  · cases h
  · rename_i cl hc
    split at h
    swap
    · cases h
    rename_i hp
    split at h
    · split at h
      · split_ifs at h
        cases h
      · rename_i k messages hm
        split at h
        · cases h
        · obtain ⟨id, hid, h⟩ := newId_bind.mp h
          cases h
          refine sendPolled ?_ ho
          have hin : k ∈ s.senders c := List.mem_append_left _ (by rw [hm]; exact List.mem_cons_self)
          have hunsent := ((hR.owned.owned c k).mp hin).2
          refine hP.keep (fun c' id' k' h => ?_) (fun id' k' kind h => ?_)
            (fun c' id' k' rc h1 h2 h3 h4 => ⟨?_, h2, h3, h4⟩)
            (still hP.clean hR.wired.registry hR.wired.typed (.newPacket _ _ _ _) rfl)
          · by_cases h0 : c' = c
            · subst h0
              exact hp
            · exact hP.idle c' id' k' (by simpa [note, h0] using h)
          · exact h.imp (fun h => (List.mem_append.mp h).resolve_right (by simp)) fun h =>
              (List.mem_append.mp h).resolve_right (by simp)
          · refine (List.mem_append.mp h1).resolve_right fun h => ?_
            obtain ⟨rfl, rfl, -⟩ : id' = id ∧ k' = k ∧ _ := by simpa using h
            exact absurd (hunsent.symm.trans h4) (by simp)
    · cases h
      exact hP.sendPolled ho
    · cases h

theorem pollRecv (hP : s.Prompt) (hR : s.Rpc) {c : ClientId} (h : s.pollRecv c = .ok s') : s'.Prompt := by
  unfold TowerCx.pollRecv at h
  split at h
  · cases h
  · rename_i cl hc
    split at h
    swap
    · cases h
    rename_i hrs
    have hr := hrs.2
    split at h
    · cases h
    · rename_i msg msgs hm
      obtain ⟨net, hnet, h⟩ := inNet_bind.mp h
      cases msg with
      | error kind =>
        -- there are no errors in the inbox of a client
        exact absurd (by rw [hm]; exact List.mem_cons_self)
          (hP.clean.buffered cl.inbox _ kind (hR.wired.clientMade c cl hc) rfl)
      | packet rc =>
        have h0 := hP.receive hR (hR.wired.clientSocket c cl hc hr) (hR.wired.clientMade c cl hc) hnet
        dsimp only at h
        split at h
        · split at h
          swap
          · cases h
          split at h
          · cases h
          · rename_i k hk
            cases h
            refine hP.keep hP.idle (fun _ _ _ h => h.imp
                (fun h => (List.mem_append.mp h).resolve_right (by simp)) fun h =>
              (List.mem_append.mp h).resolve_right (by simp)) (fun c' id' k' rc' h1 h2 h3 h4 =>
                ⟨(List.mem_append.mp h1).resolve_right (by simp), h2, h3, ?_⟩) h0
            exact canceled_of_send h4
        · cases h

theorem pollServer (hP : s.Prompt) (hR : s.Rpc) {v : ServerId} (h : s.pollServer v = .ok s') : s'.Prompt := by
  unfold TowerCx.pollServer at h
  split at h
  · rename_i sv hv hp
    split at h
    · cases h
    · rename_i msg msgs hm
      obtain ⟨net, hnet, h⟩ := inNet_bind.mp h
      have h0 := hP.receive hR (hR.wired.serverSocket v sv hv (Or.inl hp)) (hR.wired.serverMade v sv hv) hnet
      have hP' : ({ s with net := net } : TowerCx A B E).Prompt := hP.inNet rfl rfl rfl rfl rfl rfl h0
      cases msg with
      | error kind =>
        have hR' : ({ s with net := net } : TowerCx A B E).Rpc := hR.act (.serverError v sv net hv hp hnet)
        exact hP'.serverEnds hR' hv (Or.inl hp) h
      | packet rc =>
        dsimp only at h
        split at h
        · cases h
          exact hP.inNet rfl rfl rfl rfl rfl rfl h0
        · cases h
  · cases h

theorem serviceReady (hP : s.Prompt) (hR : s.Rpc) {v : ServerId} {r : Except E Unit}
    (h : s.serviceReady v r = .ok s') : s'.Prompt := by
  unfold TowerCx.serviceReady at h
  split at h
  · rename_i sv request hv hp
    cases r with
    | error e => exact hP.serverEnds hR hv (Or.inr ⟨request, hp⟩) h
    | ok u =>
      obtain ⟨m, hm, h⟩ := Except.bind_eq_ok_iff.mp h
      obtain ⟨-, id, -, rfl⟩ := spawn_ok hm
      cases h
      exact hP.inNet rfl rfl rfl rfl rfl rfl hP.clean
  · cases h

theorem dropServer (hP : s.Prompt) (hR : s.Rpc) {v : ServerId} {borrowed : Bool}
    (h : s.dropServer v borrowed = .ok s') : s'.Prompt := by
  unfold TowerCx.dropServer at h
  split at h
  · rename_i sv hv hp
    split_ifs at h
    · cases h
    · exact hP.serverEnds hR hv (Or.inl hp) h
  · rename_i sv request hv hp
    split_ifs at h
    · cases h
    · exact hP.serverEnds hR hv (Or.inr ⟨request, hp⟩) h
  · cases h

theorem net (hP : s.Prompt) (hR : s.Rpc) {e : NetEvent} {n : Net (TowerPacket A B E)}
    (he : Direct s (.net e : TowerLabel A B E)) (h : netEvent s.net e = .ok n) : n.Clean responseTy := by
  refine hP.clean.act hR.wired.registry hR.wired.typed (netEvent_act h).1 fun id' d kind hd hm hty => ?_
  have hland : ∀ {id : Id}, (s.net.land id).inFlight id' = some d → s.net.inFlight id' = some d := fun {id} h => by
    by_cases h0 : id' = id
    · subst h0
      simp at h
    · simpa [h0] using h
  cases e with
  | enqueuePacket id t rc =>
    simp only [netEvent] at h
    split at h
    · cases h
    · rename_i w hw
      split_ifs at h
      cases h
      by_cases h0 : id' = id
      · subst h0
        simp only [Net.enqueuePacket, Net.note, Net.enqueue, Function.update_self, Option.some.injEq] at hd
        subst hd
        cases hm
      · simpa [Net.enqueuePacket, h0] using hd
  | dropPacket rc =>
    simp only [netEvent] at h
    split_ifs at h
    cases h
    exact hd
  | enqueueError id t dst ty kind' =>
    simp only [netEvent] at h
    split_ifs at h
    cases h
    by_cases h0 : id' = id
    · subst h0
      simp only [Net.enqueueError, Net.enqueue, Function.update_self, Option.some.injEq] at hd
      subst hd
      exact absurd hty he
    · simpa [Net.enqueueError, h0] using hd
  | deliver id now =>
    simp only [netEvent] at h
    split at h
    · cases h
    · rename_i d' hd'
      cases h
      rw [NetCx.deliver_inFlight] at hd
      exact hland hd
  | abortDelivery id =>
    simp only [netEvent] at h
    split at h
    · cases h
    · rename_i d' hd'
      cases h
      unfold Net.abortDelivery at hd
      rw [Net.lose_inFlight] at hd
      exact hland hd
  | drain key =>
    simp only [netEvent] at h
    split at h
    · cases h
    · cases h
      unfold Net.drain at hd
      split at hd
      · exact hd
      · simpa using hd

theorem newClient (hP : s.Prompt) (hR : s.Rpc) {node : NodeId} {remote : Addr}
    (h : s.newClient node remote = .ok s') : s'.Prompt := by
  unfold TowerCx.newClient at h
  obtain ⟨id, hid, h⟩ := newId_bind.mp h
  dsimp only at h
  split at h
  · cases h
  · rename_i r net ho
    obtain ⟨s₁, h₁, h⟩ := Except.bind_eq_ok_iff.mp h
    obtain ⟨s₂, h₂, h⟩ := Except.bind_eq_ok_iff.mp h
    obtain ⟨-, id₁, -, rfl⟩ := spawn_ok h₁
    obtain ⟨-, id₂, -, rfl⟩ := spawn_ok h₂
    cases h
    refine hP.keep (fun c id k h => ?_) (fun _ _ _ h => h) (fun c id k rc h1 h2 h3 h4 => ⟨h1, h2, ?_, h4⟩)
      (hP.opened hR ho)
    · by_cases h0 : c = s.clientCount
      · subst h0
        simp at h
      · exact hP.idle c id k (by simpa [h0] using h)
    · -- there are no calls of the new client
      have h0 : c ≠ s.clientCount := by
        obtain ⟨call, hk, rfl⟩ := h2
        exact (hR.owned.client k call hk).ne
      simpa [h0] using h3

theorem step (hP : s.Prompt) (hR : s.Rpc) {l : TowerLabel A B E} (hl : Direct s l) (h : s.step l = .ok s') :
    s'.Prompt := by
  have same : s'.sendTask = s.sendTask → s'.polled = s.polled → s'.log = s.log → s'.calls = s.calls →
      s'.recvTask = s.recvTask → s'.responder = s.responder → s'.net = s.net →
          s'.Prompt := fun h1 h2 h3 h4 h5 h6 h7 =>
    hP.inNet h1 h2 h3 h4 h5 h6 (h7 ▸ hP.clean)
  cases l with
  | newClient node remote => exact hP.newClient hR h
  | pollReady c =>
    simp only [TowerCx.step, pollReady] at h
    split_ifs at h
    · cases h
      exact hP
    · cases h
  | call c req =>
    simp only [TowerCx.step, call] at h
    split_ifs at h
    cases h
    refine hP.keep hP.idle (fun _ _ _ h => h) (fun c' id k rc h1 h2 h3 h4 => ?_) hP.clean
    have h0 : k ≠ s.callCount := by
      rintro rfl
      simp at h4
    exact ⟨h1, by simpa [CallOf, h0] using h2, h3, by simpa [h0] using h4⟩
  | pollCall k => exact hP.pollCall h
  | dropCall k =>
    simp only [TowerCx.step, dropCall] at h
    split at h
    · cases h
    · split at h
      · cases h
      · cases h
      · cases h
        exact same rfl rfl rfl rfl rfl rfl rfl
  | dropClient c borrowed => exact hP.dropClient hR h
  | pollTask t =>
    simp only [TowerCx.step, pollTask] at h
    split_ifs at h with ht
    cases h
    -- between two polls none is sending
    exact hP.keep (fun c id k hs => by cases ht.1.symm.trans (hP.idle c id k hs)) (fun _ _ _ h => h)
      (fun _ _ _ _ h1 h2 h3 h4 => ⟨h1, h2, h3, h4⟩) hP.clean
  | pollSend c outcome => exact hP.pollSend hR hl h
  | pollRecv c => exact hP.pollRecv hR h
  | endPoll => exact hP.endPoll hR hl h
  | abort t => exact hP.abort hR h
  | runServer node port =>
    simp only [TowerCx.step, runServer] at h
    split at h
    · cases h
      exact same rfl rfl rfl rfl rfl rfl rfl
    · rename_i r net ho
      cases h
      exact hP.inNet rfl rfl rfl rfl rfl rfl (hP.opened hR ho)
  | pollServer v => exact hP.pollServer hR h
  | serviceReady v r => exact hP.serviceReady hR h
  | dropServer v borrowed => exact hP.dropServer hR h
  | complete j result outcome =>
    simp only [TowerCx.step, complete] at h
    split at h
    · cases h
      exact hP.keep hP.idle (fun _ _ _ h => h.imp (fun h => (List.mem_append.mp h).resolve_right (by simp))
          fun h =>
        (List.mem_append.mp h).resolve_right (by simp)) (fun _ _ _ _ h1 h2 h3 h4 =>
          ⟨(List.mem_append.mp h1).resolve_right (by simp), h2, h3, h4⟩)
        (still hP.clean hR.wired.registry hR.wired.typed (.newPacket _ _ _ _) rfl)
    · cases h
  | pollJob j =>
    simp only [TowerCx.step, pollJob] at h
    split at h
    · cases h
      exact same rfl rfl rfl rfl rfl rfl rfl
    · cases h
  | dropJob j =>
    simp only [TowerCx.step, dropJob] at h
    split at h
    · cases h
    · cases h
      exact same rfl rfl rfl rfl rfl rfl rfl
  | net e =>
    obtain ⟨n, hn, h⟩ := Except.bind_eq_ok_iff.mp h
    cases h
    exact hP.inNet rfl rfl rfl rfl rfl rfl (hP.net hR hl hn)
  | stopNode node | startNode node =>
    cases h
    exact same rfl rfl rfl rfl rfl rfl rfl
  | newId =>
    obtain ⟨id, hid, h⟩ := newId_bind.mp h
    cases h
    exact same rfl rfl rfl rfl rfl rfl rfl

end Prompt

theorem prompt_install : (install : TowerCx A B E).Prompt where
  idle _ _ _ h := by cases h
  calm _ _ _ h := by rcases h with h | h <;> cases h
  kept _ _ _ _ h := by cases h
  clean :=
    { inFlight := fun _ _ _ h => by cases h
      buffered := fun _ _ _ h => by cases h }

/-- **A net that sends at once is safe.**  In a run in which every `net.send` of a client answers `Ok` in the
poll in which it is made, and no error is enqueued for a client, no response is unclaimed.  What is left:
there are no more ids; something is spawned on a node that is stopped; a client is used without its
`send_task`, or was dropped in a poll of it; a drop while the context is borrowed. -/
theorem direct_sends_never_panic {ls : List (TowerLabel A B E)} {p : TowerPanic}
    (hrun : Machine.run step install ls = .ok s)
    (hls : Machine.Along step Direct install ls) {l : TowerLabel A B E} (h : s.step l = .error (.panic p)) :
    p = .executor .idsExhausted ∧ 2 ^ 64 ≤ s.preNextGlobalId + 3 ∨
      (∃ node, p = .executor (.nodeIsStopped node) ∧ s.stopped node = true) ∨
      p = .pollReady ∧ (∃ c, l = .pollReady c ∧ s.live c = true ∧ s.sendTask c = .dropped) ∨
      p = .noRequest ∧ (∃ c, s.polled = some (.send c) ∧ s.aborted = true ∧ s.live c = false) ∨
      p = .executor .alreadyBorrowed ∧
        ((l = .endPoll ∧ s.aborted = true) ∨ (∃ c, l = .dropClient c true) ∨ ∃ v, l = .dropServer v true) := by
  have hP : s.Prompt := (hls.inv (I := fun s : TowerCx A B E => s.Rpc ∧ s.Prompt)
    (fun m l m' hm hl hst => ⟨hm.1.acts (step_acts hst), hm.2.step hm.1 hl hst⟩) hrun
      ⟨rpc_install, prompt_install⟩).2
  have hr : Reachable s := ⟨ls, hrun⟩
  have hR := hr.rpc
  cases (panics_iff hr).mp h with
  | newId h0 => exact Or.inl ⟨rfl, by omega⟩
  | newClient _ _ h0 => exact Or.inl ⟨rfl, by omega⟩
  | newClientStopped node _ hn => exact Or.inr (Or.inl ⟨node, rfl, hn⟩)
  | serviceReady _ _ _ _ _ _ h0 => exact Or.inl ⟨rfl, by omega⟩
  | serviceStopped _ sv _ _ _ hn => exact Or.inr (Or.inl ⟨_, rfl, hn⟩)
  | sendId _ _ _ _ _ _ _ _ _ _ _ h0 => exact Or.inl ⟨rfl, by omega⟩
  | noRequest c cl outcome hc hp hs hm hh =>
    have hl : s.live c = false := by
      unfold hungUp at hh
      simpa using ((Bool.and_eq_true _ _).mp hh).1
    have ha := (hR.hung (.send c) hl (by simp [hasTask, isOpen, hs])).2
    exact Or.inr (Or.inr (Or.inr (Or.inl ⟨rfl, c, hp, ha, hl⟩)))
  | pollReady c hl hs => exact Or.inr (Or.inr (Or.inl ⟨rfl, c, rfl, hl, hs⟩))
  | endPoll c cl hc hp hb ha => exact Or.inr (Or.inr (Or.inr (Or.inr ⟨rfl, Or.inl ⟨rfl, ha⟩⟩)))
  | dropClient c hl => exact Or.inr (Or.inr (Or.inr (Or.inr ⟨rfl, Or.inr (Or.inl ⟨c, rfl⟩)⟩)))
  | dropServer v sv hv hr => exact Or.inr (Or.inr (Or.inr (Or.inr ⟨rfl, Or.inr (Or.inr ⟨v, rfl⟩)⟩)))
  | responderMissing c cl rc msgs w result id hc hp hrecv hm hw hv hu =>
    cases hu with
    | sending k hk => cases hp.symm.trans (hP.idle c id k hk)
    | errored k kind hk => exact absurd hk (hP.calm id k kind)
    | canceled k rc₀ hk hcan =>
      obtain ⟨result', id', j, job, k', rc', hpacket, -, -, -, hsent, hcall⟩ := hR.inbox hc hrecv hm hw
      rw [hpacket] at hv
      obtain ⟨-, rfl⟩ := TowerResponse.complete.inj (TowerPacket.response.inj hv)
      obtain ⟨rfl, -⟩ := hR.told.sentId _ _ _ _ _ hk hsent
      exact absurd hcan (hP.kept c _ k _ hsent hcall hrecv)

/-- The client goes in a poll of its `send_task`, before the future of `net.send` answers. -/
def deferredRun : List (TowerLabel ℕ ℕ ℕ) :=
  [.newClient 1 ⟨2, 7⟩, .call 0 5, .pollCall 0, .pollTask (.send 0), .pollSend 0 .pending,
    .dropClient 0 false, .dropCall 0, .pollSend 0 (.ready (.ok ()))]

theorem direct_sends_never_panic_deferred : ∃ s : TowerCx ℕ ℕ ℕ, Machine.run step install deferredRun = .ok s ∧
    s.step (.pollSend 0 .pending) = .error (.panic .noRequest) ∧
    ∃ c, s.polled = some (.send c) ∧ s.aborted = true ∧ s.live c = false := by
  obtain ⟨s, hs, hq⟩ : ∃ s : TowerCx ℕ ℕ ℕ, Machine.run step install deferredRun = .ok s ∧
      (s.step (.pollSend 0 .pending)).map (fun _ => ()) = .error (.panic .noRequest) :=
        Machine.exists_of_run (by decide +kernel)
  have hst : s.step (.pollSend 0 .pending) = .error (.panic .noRequest) := by
    cases h : s.step (.pollSend 0 .pending) with
    | error e => rw [h] at hq; cases hq; rfl
    | ok m => rw [h] at hq; cases hq
  have hls : Machine.Along step Direct install deferredRun := by
    simp [deferredRun, Machine.Along, Direct]
  refine ⟨s, hs, hst, ?_⟩
  rcases direct_sends_never_panic hs hls hst with ⟨h, -⟩ | ⟨node, h, -⟩ | ⟨h, -⟩ | ⟨-, h⟩ | ⟨h, -⟩
  · cases h
  · cases h
  · cases h
  · exact h
  · cases h

end TowerCx

end Refault
