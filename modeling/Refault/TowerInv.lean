import Refault.TowerStep

/-!
# Refault.TowerInv — what the RPC layer keeps

Two invariants are kept by every act.  `Wired`: the net is as it should be, and each client and server has the
socket that was opened for it.  `Owned`: the `Sender` of a call is at one place of its client, in the channel,
in `send_task` or in the map, as long as nothing was sent through it.
-/

namespace Refault

namespace Net

variable {P : Type} {n n' : Net P} {r : InboxRc}

/-- What the passing of messages leaves as it is. -/
structure Wiring (P : Type) where
  inboxes : Key → Option InboxRc
  sockets : InboxRc → Option Socket
  created : InboxRc → Option Key
  inboxCount : ℕ
  packets : PacketRc → Option (WrappedPacket P)
  packetCount : ℕ
  dropped : Bool

def wiring (n : Net P) : Wiring P :=
  ⟨n.inboxes, n.sockets, n.created, n.inboxCount, n.packets, n.packetCount, n.dropped⟩

theorem lose_wiring (n : Net P) (cause : LostCause) (msg : Msg) : (n.lose cause msg).wiring = n.wiring := by
  cases msg <;> rfl

theorem collect_wiring (n : Net P) (r : InboxRc) : (n.collect r).wiring = n.wiring :=
  collect_frame n r wiring (fun n => lose_wiring n _) rfl

theorem deliver_wiring (n : Net P) (id : Id) (now : Instant) (d : Delivery) :
    (n.deliver id now d).wiring = n.wiring := by
  unfold Net.deliver
  dsimp only
  split
  · exact lose_wiring _ _ _
  · split_ifs
    · rfl
    · exact lose_wiring _ _ _

theorem drain_wiring (n : Net P) (r : InboxRc) : (n.drain r).wiring = n.wiring := by
  unfold Net.drain
  split
  · rfl
  · exact lose_wiring _ _ _

theorem pollReceive_wiring {ty : TypeId} {clone : Option P} (h : n.pollReceive r ty clone = .ok n') :
    n'.wiring = n.wiring :=
  NetCx.pollReceive_frame wiring (fun _ _ => rfl) (fun _ _ _ => rfl) (fun _ _ => rfl)
    (fun _ => collect_wiring _ _) h

theorem lose_log (n : Net P) (cause : LostCause) (msg : Msg) : n.log <+: (n.lose cause msg).log := by
  cases msg with
  | packet rc => exact List.prefix_append _ _
  | error kind => exact List.prefix_rfl

theorem collect_log (n : Net P) (r : InboxRc) : n.log <+: (n.collect r).log := by
  have key : ∀ (msgs : List Msg)
      (n : Net P), n.log <+: (msgs.foldl (fun n msg => n.lose .inboxFreed msg) n).log := by
    intro msgs
    induction msgs with
    | nil => exact fun _ => List.prefix_rfl
    | cons msg msgs ih => exact fun n => (lose_log n _ msg).trans (ih _)
  rw [collect_eq]
  split
  · exact List.prefix_rfl
  · exact key _ (n.setBuffer r [])

/-- Nothing that was observed is forgotten. -/
theorem Act.log (h : Act n n') : n.log <+: n'.log := by
  have note : ∀ {m : Net P} {o : NetObs P}, m.log <+: (m.note o).log := List.prefix_append _ _
  cases h with
  | sent rc now => exact note
  | dropPacket rc h => exact note (m := (n.letGo rc).release rc)
  | enqueuePacket id t rc w h hp hid =>
    exact note (m := (n.letGo rc).enqueue id t (w.header.dst, w.header.ty) (.packet rc))
  | deliver id now d h =>
    unfold Net.deliver
    dsimp only
    have h0 : n.log <+: ((n.land id).note (.attempt id now d.msg (n.accepts d.key))).log := note (m := n.land id)
    split
    · exact h0.trans (lose_log _ _ _)
    · split_ifs
      · exact h0
      · exact h0.trans (lose_log _ _ _)
  | abortDelivery id d h => exact lose_log (n.land id) _ _
  | openSocket key r n' hd h =>
    unfold Net.openSocket at h
    split at h
    · cases h
    · cases h
      exact List.prefix_rfl
  | dropSocket r sock n' hs h =>
    unfold Net.dropSocket at h
    split_ifs at h
    cases h
    exact collect_log (n :=
      { n with inboxes := Function.update n.inboxes sock.key none, sockets := Function.update n.sockets r none }) r
  | dropReceive r h =>
    exact collect_log (n := { n with receivers := Function.update n.receivers r (n.receivers r - 1) }) r
  | pollReceive r key clone n' h hk hp =>
    unfold Net.pollReceive at hp
    split at hp
    · cases hp
      exact List.prefix_rfl
    · rename_i msg msgs hb
      obtain ⟨m, hm, hp⟩ := Except.bind_eq_ok_iff.mp hp
      cases hp
      refine List.IsPrefix.trans ?_
        (collect_log (n := { m with receivers := Function.update m.receivers r (m.receivers r - 1) }) r)
      cases msg with
      | error kind =>
        cases hm
        exact note
      | packet rc =>
        simp only [Net.receiveMsg] at hm
        split at hm
        · cases hm
        · split_ifs at hm
          obtain ⟨⟨value, cloned⟩, -, hm⟩ := Except.bind_eq_ok_iff.mp hm
          cases hm
          exact note (m := (n.setBuffer r msgs).release rc)
  | drain r key h =>
    unfold Net.drain
    split
    · exact List.prefix_rfl
    · exact lose_log (n.setBuffer r _) _ _
  | _ => exact List.prefix_rfl

theorem Acts.log (h : Acts n n') : n.log <+: n'.log := by
  induction h with
  | refl => exact List.prefix_rfl
  | tail _ h ih => exact ih.trans h.log

/-- A packet once received has been received for good. -/
theorem Acts.received (h : Acts n n') {rc : PacketRc} (hr : 0 < n.row rc .received) : 0 < n'.row rc .received :=
  hr.trans_le (h.log.sublist.countP_le (p := NetObs.isReceived rc))

/-- `socket.receive()` when there is something to receive. -/
theorem receive_acts {key : Key} {clone : Option P} (hs : n.sockets r ≠ none) (hk : n.created r = some key)
    (h : (n.receive r).pollReceive r key.2 clone = .ok n') : Acts n n' ∧ n'.wiring = n.wiring :=
  ⟨.head (.receive r hs) (.single (.pollReceive r key clone n' (by simp) hk h)),
    pollReceive_wiring (n := n.receive r) h⟩

theorem openSocket_ok {key : Key} (h : n.openSocket key = .ok (r, n')) : n.inboxes key = none ∧ r = n.inboxCount ∧
    n'.wiring = { n.wiring with
      inboxes := Function.update n.inboxes key (some r)
      sockets := Function.update n.sockets r (some ⟨key.1, key.2⟩)
      created := Function.update n.created r (some key)
      inboxCount := n.inboxCount + 1 } := by
  unfold Net.openSocket at h
  split at h
  · cases h
  · rename_i hi
    cases h
    exact ⟨hi, rfl, rfl⟩

theorem dropSocket_ok {sock : Socket} (h : n.dropSocket r sock = .ok n') : n'.wiring = { n.wiring with
    inboxes := Function.update n.inboxes sock.key none
    sockets := Function.update n.sockets r none } := by
  unfold Net.dropSocket at h
  split_ifs at h
  cases h
  exact collect_wiring _ r

end Net

namespace TowerCx

variable {A B E : Type} {s s' : TowerCx A B E}

theorem newId_ok {pre : ℕ} {id : Id} (h : Refault.newId pre = .ok id) (hp : pre < 2 ^ 64) :
    id = pre + 1 ∧ id < 2 ^ 64 := by
  unfold Refault.newId at h
  by_cases hlt : pre + 1 < 2 ^ 64
  · rw [Nat.mod_eq_of_lt hlt] at h
    cases h
    exact ⟨rfl, hlt⟩
  · rw [show pre + 1 = 2 ^ 64 by omega, Nat.mod_self] at h
    cases h

/-- The packets of a net are changed as `e` says. -/
theorem netEvent_act {n n' : Net (TowerPacket A B E)} {e : NetEvent} (h : netEvent n e = .ok n') :
    Net.Act n n' ∧ n'.wiring = n.wiring := by
  cases e with
  | enqueuePacket id t rc =>
    simp only [netEvent] at h
    split at h
    · cases h
    · rename_i w hw
      split_ifs at h with h0
      cases h
      exact ⟨.enqueuePacket id t rc w h0.1 hw h0.2, rfl⟩
  | dropPacket rc =>
    simp only [netEvent] at h
    split_ifs at h with h0
    cases h
    exact ⟨.dropPacket rc h0, rfl⟩
  | enqueueError id t dst ty kind =>
    simp only [netEvent] at h
    split_ifs at h with h0
    cases h
    exact ⟨.enqueueError id t dst ty kind h0, rfl⟩
  | deliver id now =>
    simp only [netEvent] at h
    split at h
    · cases h
    · rename_i d hd
      cases h
      exact ⟨.deliver id now d hd, Net.deliver_wiring _ _ _ _⟩
  | abortDelivery id =>
    simp only [netEvent] at h
    split at h
    · cases h
    · rename_i d hd
      cases h
      exact ⟨.abortDelivery id d hd, Net.lose_wiring _ _ _⟩
  | drain key =>
    simp only [netEvent] at h
    split at h
    · cases h
    · rename_i r hr
      cases h
      exact ⟨.drain r key hr, Net.drain_wiring _ _⟩

/-! ## Sockets -/

/-- The future of `run_server` is not at its end. -/
def runs (s : TowerCx A B E) (v : ServerId) : Prop :=
  s.serverPhase v = .receiving ∨ ∃ request, s.serverPhase v = .readying request

/-- Clients and servers have their sockets, and every client a port of its own. -/
structure Wired (s : TowerCx A B E) : Prop where
  registry : s.net.Registry
  typed : s.net.Typed
  tracked : ∀ rc, s.net.Tracked rc
  dropped : s.net.dropped = false
  pre : s.preNextGlobalId < 2 ^ 64
  ports : ∀ node port r, s.net.inboxes (⟨node, port⟩, responseTy) = some r → port ≤ s.preNextGlobalId
  clientLt : ∀ c, s.clientCount ≤ c → s.clients c = none
  clientMade : ∀ c cl, s.clients c = some cl → s.net.created cl.inbox = some (cl.localAddr, responseTy)
  clientPort : ∀ c cl, s.clients c = some cl → cl.localAddr.port ≤ s.preNextGlobalId
  clientSocket : ∀ c cl, s.clients c = some cl → s.recvTask c = true → s.net.sockets cl.inbox ≠ none
  clientInj : ∀ c c' cl cl', s.clients c = some cl → s.clients c' = some cl' → cl.localAddr = cl'.localAddr →
    c = c'
  serverLt : ∀ v, s.serverCount ≤ v → s.servers v = none
  jobLt : ∀ j, s.jobCount ≤ j → s.jobs j = none
  serverMade : ∀ v sv, s.servers v = some sv → s.net.created sv.inbox = some (sv.localAddr, requestTy)
  serverSocket : ∀ v sv, s.servers v = some sv → s.runs v → s.net.sockets sv.inbox ≠ none
  serverInj : ∀ v v' sv sv', s.servers v = some sv → s.servers v' = some sv' → sv.inbox = sv'.inbox → v = v'

namespace Wired

/-- Messages are passed on. -/
theorem passed (hW : s.Wired) {net : Net (TowerPacket A B E)} (ha : Net.Acts s.net net)
    (hw : net.wiring = s.net.wiring) : ({ s with net := net } : TowerCx A B E).Wired := by
  have h1 : net.inboxes = s.net.inboxes := congrArg Net.Wiring.inboxes hw
  have h2 : net.sockets = s.net.sockets := congrArg Net.Wiring.sockets hw
  have h3 : net.created = s.net.created := congrArg Net.Wiring.created hw
  exact { hW with
    registry := ha.registry hW.registry
    typed := ha.typed hW.registry hW.typed
    tracked := fun rc => ha.tracked hW.registry hW.typed (hW.tracked rc)
    dropped := (congrArg Net.Wiring.dropped hw).trans hW.dropped
    ports := h1 ▸ hW.ports
    clientMade := h3 ▸ hW.clientMade
    clientSocket := h2 ▸ hW.clientSocket
    serverMade := h3 ▸ hW.serverMade
    serverSocket := h2 ▸ hW.serverSocket }

theorem made (hW : s.Wired) {r : InboxRc} {key : Key} (h : s.net.created r = some key) : r < s.net.inboxCount := by
  by_contra hle
  rw [(hW.registry.fresh r (Nat.le_of_not_lt hle)).2.2] at h
  cases h

/-- A live socket is the one for the key of its inbox. -/
theorem socket (hW : s.Wired) {r : InboxRc} {key : Key} (h : s.net.sockets r ≠ none)
    (hk : s.net.created r = some key) : s.net.sockets r = some ⟨key.1, key.2⟩ := by
  obtain ⟨sock, hs⟩ := Option.ne_none_iff_exists'.mp h
  have := hW.registry.created r sock hs
  rw [hk] at this
  cases this
  exact hs

/-- A new socket, of a client or a server. -/
theorem opened (hW : s.Wired) {key : Key} {r : InboxRc} {net : Net (TowerPacket A B E)} {id : Id}
    (hid : s.preNextGlobalId ≤ id)
    (hlt : id < 2 ^ 64) (hkey : key.2 = responseTy → key.1.port ≤ id) (h : s.net.openSocket key = .ok (r, net)) :
    ({ s with net := net, preNextGlobalId := id } : TowerCx A B E).Wired ∧ net.created r = some key ∧
    net.sockets r ≠ none ∧
      r = s.net.inboxCount := by
  obtain ⟨-, rfl, hw⟩ := Net.openSocket_ok h
  have h1 : net.inboxes = Function.update s.net.inboxes key (some s.net.inboxCount) :=
    congrArg Net.Wiring.inboxes hw
  have h2 : net.sockets = Function.update s.net.sockets s.net.inboxCount (some ⟨key.1, key.2⟩) :=
    congrArg Net.Wiring.sockets hw
  have h3 : net.created = Function.update s.net.created s.net.inboxCount (some key) :=
    congrArg Net.Wiring.created hw
  have ha : Net.Acts s.net net := .single (.openSocket key _ net hW.dropped h)
  have old : ∀ {r : InboxRc} {k : Key}, s.net.created r = some k → r ≠ s.net.inboxCount :=
    fun hk => (hW.made hk).ne
  refine ⟨{ hW with
    registry := ha.registry hW.registry
    typed := ha.typed hW.registry hW.typed
    tracked := fun rc => ha.tracked hW.registry hW.typed (hW.tracked rc)
    dropped := (congrArg Net.Wiring.dropped hw).trans hW.dropped
    pre := hlt
    ports := ?_
    clientMade := ?_
    clientPort := fun c cl hc => (hW.clientPort c cl hc).trans hid
    clientSocket := ?_
    serverMade := ?_
    serverSocket := ?_ }, by rw [h3]; simp, by rw [h2]; simp, rfl⟩
  · intro node port r hr
    by_cases hk : ((⟨node, port⟩, responseTy) : Key) = key
    · subst hk
      exact hkey rfl
    · refine (hW.ports node port r ?_).trans hid
      simpa [h1, hk] using hr
  · intro c cl hc
    have hk := hW.clientMade c cl hc
    simpa [h3, old hk] using hk
  · intro c cl hc hr
    simpa [h2, old (hW.clientMade c cl hc)] using hW.clientSocket c cl hc hr
  · intro v sv hv
    have hk := hW.serverMade v sv hv
    simpa [h3, old hk] using hk
  · intro v sv hv hr
    simpa [h2, old (hW.serverMade v sv hv)] using hW.serverSocket v sv hv hr

/-- The socket at `r` is dropped; what is left are those of the others. -/
theorem closed (hW : s.Wired) {r : InboxRc} {key : Key} (hk : s.net.created r = some key)
    (hs : s.net.sockets r ≠ none) :
    ∃ net, s.net.dropSocket r ⟨key.1, key.2⟩ = .ok net ∧ Net.Acts s.net net ∧
    (∀ r', r' ≠ r → net.sockets r' = s.net.sockets r') ∧
      (∀ k r', net.inboxes k = some r' → s.net.inboxes k = some r') ∧ net.created = s.net.created ∧
      net.dropped = s.net.dropped := by
  have hsock := hW.socket hs hk
  have hi : s.net.inboxes key = some r := (hW.registry.registered hW.dropped key r).mpr ⟨_, hsock, rfl⟩
  refine ⟨_, if_pos hi, .single (.dropSocket r _ _ hsock (if_pos hi)), fun r' hr => ?_, fun k r' h => ?_, ?_, ?_⟩
  · simp [hr]
  · by_cases hkk : k = key
    · subst hkk
      simp [Socket.key] at h
    · simpa [Socket.key, hkk] using h
  · simp
  · simp

/-- The same, when no client and no server is left with it. -/
theorem left (hW : s.Wired) (recvTask : ClientId → Bool) (serverPhase : ServerId → ServerPhase A E)
    {r : InboxRc} {key : Key}
    {net : Net (TowerPacket A B E)} (hk : s.net.created r = some key) (hs : s.net.sockets r ≠ none)
    (h : s.net.dropSocket r ⟨key.1, key.2⟩ = .ok net)
    (hc : ∀ c cl, s.clients c = some cl → recvTask c = true → s.recvTask c = true ∧ cl.inbox ≠ r)
    (hv : ∀ v sv, s.servers v = some sv →
      (serverPhase v = .receiving ∨ ∃ request, serverPhase v = .readying request) →
      s.runs v ∧ sv.inbox ≠ r) : ({ s with net := net, recvTask := recvTask, serverPhase := serverPhase } :
      TowerCx A B E).Wired := by
  obtain ⟨net', h', ha, h1, h2, h3, h4⟩ := hW.closed hk hs
  obtain rfl : net' = net := Except.ok.inj (h'.symm.trans h)
  exact { hW with
    registry := ha.registry hW.registry
    typed := ha.typed hW.registry hW.typed
    tracked := fun rc => ha.tracked hW.registry hW.typed (hW.tracked rc)
    dropped := h4.trans hW.dropped
    ports := fun node port r' hr => hW.ports node port r' (h2 _ _ hr)
    clientMade := h3 ▸ hW.clientMade
    clientSocket := fun c cl hcl hr => by
      obtain ⟨hr', hne⟩ := hc c cl hcl hr
      exact (h1 _ hne) ▸ hW.clientSocket c cl hcl hr'
    serverMade := h3 ▸ hW.serverMade
    serverSocket := fun v sv hsv hr => by
      obtain ⟨hr', hne⟩ := hv v sv hsv hr
      exact (h1 _ hne) ▸ hW.serverSocket v sv hsv hr' }

theorem inbox_ne (hW : s.Wired) {c : ClientId} {cl : Client} {v : ServerId} {sv : Server}
    (hc : s.clients c = some cl) (hv : s.servers v = some sv) : cl.inbox ≠ sv.inbox := fun h => by
  have h1 := hW.clientMade c cl hc
  rw [h, hW.serverMade v sv hv] at h1
  simp at h1

theorem client_eq (hW : s.Wired) {c c' : ClientId} {cl cl' : Client} (hc : s.clients c = some cl)
    (hc' : s.clients c' = some cl') (h : cl.inbox = cl'.inbox) : c = c' := by
  have h1 := hW.clientMade c cl hc
  rw [h, hW.clientMade c' cl' hc'] at h1
  simp only [Option.some.injEq, Prod.mk.injEq, and_true] at h1
  exact hW.clientInj c c' cl cl' hc hc' h1.symm

/-- A poll of `socket.receive()`, in a client. -/
theorem client_receive (hW : s.Wired) {c : ClientId} {cl : Client} {net : Net (TowerPacket A B E)}
    (hc : s.clients c = some cl)
    (hr : s.recvTask c = true) (h : (s.net.receive cl.inbox).pollReceive cl.inbox responseTy none = .ok net) :
    Net.Acts s.net net ∧ net.wiring = s.net.wiring :=
  Net.receive_acts (hW.clientSocket c cl hc hr) (hW.clientMade c cl hc) h

/-- And in a server. -/
theorem server_receive (hW : s.Wired) {v : ServerId} {sv : Server} {net : Net (TowerPacket A B E)}
    (hv : s.servers v = some sv)
    (hr : s.runs v) (h : (s.net.receive sv.inbox).pollReceive sv.inbox requestTy none = .ok net) :
    Net.Acts s.net net ∧ net.wiring = s.net.wiring :=
  Net.receive_acts (hW.serverSocket v sv hv hr) (hW.serverMade v sv hv) h

/-- Making a packet. -/
theorem newPacket (hW : s.Wired) (src dst : Addr) (packet : Packet (TowerPacket A B E)) (level : ServiceLevel) :
    ({ s with net := (s.net.newPacket src dst packet level).2 } : TowerCx A B E).Wired :=
  have ha : Net.Acts s.net (s.net.newPacket src dst packet level).2 := .single (.newPacket src dst packet level)
  { hW with
    registry := ha.registry hW.registry
    typed := ha.typed hW.registry hW.typed
    tracked := fun rc => ha.tracked hW.registry hW.typed (hW.tracked rc) }

theorem newId (hW : s.Wired) {id : Id} (h : Refault.newId s.preNextGlobalId = .ok id) :
    ({ s with preNextGlobalId := id } : TowerCx A B E).Wired := by
  obtain ⟨rfl, hlt⟩ := newId_ok h hW.pre
  exact { hW with
    pre := hlt
    ports := fun node port r hr => (hW.ports node port r hr).trans (Nat.le_succ _)
    clientPort := fun c cl hc => (hW.clientPort c cl hc).trans (Nat.le_succ _) }

theorem act (hW : s.Wired) (h : Act s s') : s'.Wired := by
  cases h with
  | newId id h => exact hW.newId h
  | newClient node remote id r net hid h =>
    obtain ⟨rfl, hlt⟩ := newId_ok hid hW.pre
    obtain ⟨hW', hk, hs, rfl⟩ := hW.opened (Nat.le_succ _) hlt (fun _ => le_rfl) h
    have hne : ∀ {c cl}, s.clients c = some cl → c ≠ s.clientCount := fun {c cl} hc h0 => by
      rw [h0, hW.clientLt _ le_rfl] at hc
      cases hc
    -- a client of before has an older port
    have hold : ∀ {c cl}, s.clients c = some cl →
        cl.localAddr ≠ ⟨node, s.preNextGlobalId + 1⟩ := fun {c cl} hc h0 => by
      have := hW.clientPort c cl hc
      rw [h0] at this
      exact Nat.not_succ_le_self _ this
    refine { hW' with
      clientLt := fun c hc => ?_
      clientMade := fun c cl hc => ?_
      clientPort := fun c cl hc => ?_
      clientSocket := fun c cl hc hr => ?_
      clientInj := fun c c' cl cl' hc hc' hcl => ?_ }
    · exact (Function.update_of_ne (Nat.ne_of_gt hc) _ _).trans (hW.clientLt c (Nat.le_of_succ_le hc))
    · by_cases h0 : c = s.clientCount
      · subst h0
        simp only [Function.update_self, Option.some.injEq] at hc
        subst hc
        exact hk
      · exact hW'.clientMade c cl (by simpa [h0] using hc)
    · by_cases h0 : c = s.clientCount
      · subst h0
        simp only [Function.update_self, Option.some.injEq] at hc
        subst hc
        exact le_rfl
      · exact hW'.clientPort c cl (by simpa [h0] using hc)
    · by_cases h0 : c = s.clientCount
      · subst h0
        simp only [Function.update_self, Option.some.injEq] at hc
        subst hc
        exact hs
      · exact hW'.clientSocket c cl (by simpa [h0] using hc) (by simpa [h0] using hr)
    · by_cases h0 : c = s.clientCount <;> by_cases h1 : c' = s.clientCount
      · rw [h0, h1]
      · simp only [h0, h1, ne_eq, not_false_eq_true, Function.update_self, Function.update_of_ne,
          Option.some.injEq] at hc hc'
        subst hc
        exact absurd hcl.symm (hold hc')
      · simp only [h0, h1, ne_eq, not_false_eq_true, Function.update_self, Function.update_of_ne,
          Option.some.injEq] at hc hc'
        subst hc'
        exact absurd hcl (hold hc)
      · exact hW.clientInj c c' cl cl' (by simpa [h0] using hc) (by simpa [h1] using hc') hcl
  | dropSend c =>
    rw [dropSend_eq]
    exact { hW with }
  | dropRecv c s' hr h =>
    obtain ⟨cl, net, hc, hnet, rfl⟩ := dropRecv_ok h
    have hW' := hW.left (Function.update s.recvTask c false) s.serverPhase (hW.clientMade c cl hc)
      (hW.clientSocket c cl hc hr) hnet
      (fun c' cl' hc' hr' => by
        have hne : c' ≠ c := by
          rintro rfl
          simp at hr'
        exact ⟨by simpa [hne] using hr', fun h0 => hne (hW.client_eq hc' hc h0)⟩)
      fun v sv hv hv' => ⟨hv', (hW.inbox_ne hc hv).symm⟩
    split
    · exact hW'
    · exact { hW' with }
  | send c cl k messages call id hc hs hm hk hid =>
    exact { (hW.newPacket cl.localAddr cl.remote
      ⟨requestTy, .request (.start call.req id)⟩ .ofPacket).newId hid with }
  | clear c cl kind net hc hr h =>
    obtain ⟨ha, hw⟩ := hW.client_receive hc hr h
    exact { hW.passed ha hw with }
  | answer c cl rc w result id k msgs net hc hr hm h hw hv hk =>
    obtain ⟨ha, hwire⟩ := hW.client_receive hc hr h
    exact { hW.passed ha hwire with }
  | runServer node port r net h =>
    obtain ⟨hW', hk, hs, rfl⟩ :=
      hW.opened le_rfl hW.pre (fun h0 => absurd (show requestTy = responseTy from h0) (by decide)) h
    have hne : ∀ {v sv}, s.servers v = some sv → v ≠ s.serverCount := fun {v sv} hv h0 => by
      rw [h0, hW.serverLt _ le_rfl] at hv
      cases hv
    have hold : ∀ {v sv}, s.servers v = some sv → sv.inbox ≠ s.net.inboxCount :=
      fun hv => (hW.made (hW.serverMade _ _ hv)).ne
    refine { hW' with
      serverLt := fun v hv => ?_
      serverMade := fun v sv hv => ?_
      serverSocket := fun v sv hv hr => ?_
      serverInj := fun v v' sv sv' hv hv' hsv => ?_ }
    · exact (Function.update_of_ne (Nat.ne_of_gt hv) _ _).trans (hW.serverLt v (Nat.le_of_succ_le hv))
    · by_cases h0 : v = s.serverCount
      · subst h0
        simp only [Function.update_self, Option.some.injEq] at hv
        subst hv
        exact hk
      · exact hW'.serverMade v sv (by simpa [h0] using hv)
    · by_cases h0 : v = s.serverCount
      · subst h0
        simp only [Function.update_self, Option.some.injEq] at hv
        subst hv
        exact hs
      · exact hW'.serverSocket v sv (by simpa [h0] using hv) (by simpa [runs, h0] using hr)
    · by_cases h0 : v = s.serverCount <;> by_cases h1 : v' = s.serverCount
      · rw [h0, h1]
      · simp only [h0, h1, ne_eq, not_false_eq_true, Function.update_self, Function.update_of_ne,
          Option.some.injEq] at hv hv'
        subst hv
        exact absurd hsv.symm (hold hv')
      · simp only [h0, h1, ne_eq, not_false_eq_true, Function.update_self, Function.update_of_ne,
          Option.some.injEq] at hv hv'
        subst hv'
        exact absurd hsv (hold hv)
      · exact hW.serverInj v v' sv sv' (by simpa [h0] using hv) (by simpa [h1] using hv') hsv
  | addrInUse =>
    have hne : ∀ {v sv}, s.servers v = some sv → v ≠ s.serverCount := fun {v sv} hv h0 => by
      rw [h0, hW.serverLt _ le_rfl] at hv
      cases hv
    exact { hW with
      serverLt := fun v hv => hW.serverLt v (Nat.le_of_succ_le hv)
      serverSocket := fun v sv hv hr => hW.serverSocket v sv hv (by simpa [runs, hne hv] using hr) }
  | serverError v sv net hv hp h =>
    obtain ⟨ha, hw⟩ := hW.server_receive hv (Or.inl hp) h
    exact hW.passed ha hw
  | serverEnds v sv phase s' hv hp hph h =>
    obtain ⟨net, hnet, h⟩ := inNet_bind.mp h
    cases h
    have hend : ¬(phase = .receiving ∨ ∃ request, phase = .readying request) := by
      rcases hph with rfl | ⟨e, rfl⟩ <;> simp
    refine hW.left s.recvTask (Function.update s.serverPhase v phase) (hW.serverMade v sv hv)
      (hW.serverSocket v sv hv hp) hnet (fun c cl hc hr => ⟨hr, hW.inbox_ne hc hv⟩) fun v' sv' hv' hr' => ?_
    have hne : v' ≠ v := by
      rintro rfl
      exact hend (by simpa using hr')
    exact ⟨by simpa [hne, runs] using hr', fun h0 => hne (hW.serverInj v' v sv' sv hv' hv h0)⟩
  | serverGets v sv rc w req id msgs net hv hp hm h hw hval =>
    obtain ⟨ha, hwire⟩ := hW.server_receive hv (Or.inl hp) h
    have hW' := hW.passed ha hwire
    refine { hW' with serverSocket := fun v' sv' hv' hr => ?_ }
    by_cases h0 : v' = v
    · exact hW'.serverSocket v' sv' hv' (h0 ▸ Or.inl hp)
    · exact hW'.serverSocket v' sv' hv' (by simpa [runs, h0] using hr)
  | startJob v sv request hv hp =>
    refine { hW with
      jobLt := fun j hj => (Function.update_of_ne (Nat.ne_of_gt hj) _ _).trans (hW.jobLt j (Nat.le_of_succ_le hj))
      serverSocket := fun v' sv' hv' hr => ?_ }
    by_cases h0 : v' = v
    · exact hW.serverSocket v' sv' hv' (h0 ▸ Or.inr ⟨_, hp⟩)
    · exact hW.serverSocket v' sv' hv' (by simpa [runs, h0] using hr)
  | reply j job result phase hj hp hph =>
    exact { hW.newPacket job.localAddr job.request.address
      ⟨responseTy, .response (.complete result job.request.id)⟩ .ofPacket with }
  | net e net h =>
    obtain ⟨ha, hw⟩ := netEvent_act h
    exact hW.passed (.single ha) hw
  | _ => exact { hW with }

end Wired

theorem Acts.wired (h : Acts s s') (hW : s.Wired) : s'.Wired := by
  induction h with
  | refl => exact hW
  | tail _ h ih => exact ih.act h

theorem wired_install : (install : TowerCx A B E).Wired where
  registry := Net.registry_new
  typed := Net.typed_new
  tracked := Net.tracked_new
  dropped := rfl
  pre := Nat.two_pow_pos 64
  ports _ _ _ h := by cases h
  clientLt _ _ := rfl
  clientMade _ _ h := by cases h
  clientPort _ _ h := by cases h
  clientSocket _ _ h := by cases h
  clientInj _ _ _ _ h := by cases h
  serverLt _ _ := rfl
  jobLt _ _ := rfl
  serverMade _ _ h := by cases h
  serverSocket _ _ h := by cases h
  serverInj _ _ _ _ h := by cases h

/-! ## Responders -/

/-- The requests of a client that have got an id, with their calls: in `send_task`, or in the map. -/
def entries (s : TowerCx A B E) (c : ClientId) : List (Id × CallId) := (s.sendTask c).entries ++ s.responders c

/-- The calls whose `Sender`s the client has. -/
def senders (s : TowerCx A B E) (c : ClientId) : List CallId := s.messages c ++ (s.entries c).map Prod.snd

theorem cutOff_sublist {c : ClientId} : (s.cutOff c).Sublist (s.senders c) := by
  unfold cutOff senders entries
  rw [List.map_append, ← List.append_assoc]
  refine List.Sublist.append_left ?_ _
  split
  · exact List.nil_sublist _
  · exact List.Sublist.refl _

/-- Entries are taken out of the map. -/
theorem entries_takeOut {c : ClientId} {responders : List (Id × CallId)}
    (hsub : responders.Sublist (s.responders c))
    (hsend : s'.sendTask = s.sendTask) (hr : s'.responders = Function.update s.responders c responders)
    (c' : ClientId) : (s'.entries c').Sublist (s.entries c') := by
  unfold entries
  rw [hsend, hr]
  by_cases h0 : c' = c
  · subst h0
    rw [Function.update_self]
    exact hsub.append_left _
  · rw [Function.update_of_ne h0]

/-- `send_task` is done with its request. -/
theorem entries_receiving {c : ClientId} (hsend : s'.sendTask = Function.update s.sendTask c .receiving)
    (hr : s'.responders = s.responders) (c' : ClientId) : (s'.entries c').Sublist (s.entries c') := by
  unfold entries
  rw [hsend, hr]
  by_cases h0 : c' = c
  · subst h0
    rw [Function.update_self]
    exact List.sublist_append_right _ _
  · rw [Function.update_of_ne h0]

theorem entries_dropSend (c c' : ClientId) : ((s.dropSend c).entries c').Sublist (s.entries c') := by
  rw [dropSend_eq]
  unfold entries
  by_cases h0 : c' = c
  · subst h0
    by_cases hr : s.recvTask c' = true <;> simp [SendTask.entries, hr]
  · by_cases hr : s.recvTask c = true <;> simp [h0, hr]

/-- It is a call of the client. -/
def CallOf (s : TowerCx A B E) (c : ClientId) (k : CallId) : Prop :=
  ∃ call, s.calls k = some call ∧ call.client = c

/-- A call is of one client. -/
theorem callOf_unique {c c' : ClientId} {k : CallId} (h : s.CallOf c k) (h' : s.CallOf c' k) : c = c' := by
  obtain ⟨call, h1, rfl⟩ := h
  obtain ⟨call', h2, rfl⟩ := h'
  rw [Option.some.inj (h1.symm.trans h2)]

/-- A `Sender` that nothing was sent through is in one place, and that is a place of its client. -/
structure Owned (s : TowerCx A B E) : Prop where
  nodup : ∀ c, (s.senders c).Nodup
  owned : ∀ c k, k ∈ s.senders c ↔ s.CallOf c k ∧ s.responder k = .unsent
  keys : ∀ c, ((s.entries c).map Prod.fst).Nodup
  keysLe : ∀ c p, p ∈ s.entries c → p.1 ≤ s.preNextGlobalId
  callLt : ∀ k, s.callCount ≤ k → s.calls k = none
  client : ∀ k call, s.calls k = some call → call.client < s.clientCount
  fresh : ∀ c, s.clientCount ≤ c → s.live c = false
  created : ∀ k, s.phase k = .created → s.responder k = .none
  sendGone : ∀ c, s.sendTask c = .dropped → s.messages c = []
  gone : ∀ c, s.sendTask c = .dropped → s.recvTask c = false → s.responders c = []
  returned : ∀ k r, s.phase k = .returned r → r = connectionReset ∨ s.responder k = .sent r

/-- What is done with a `Sender` ends its use, and only once. -/
structure Responder.Settles {R : Type} (f : Responder R → Responder R) : Prop where
  unsent : f .unsent ≠ .unsent
  other : ∀ o, o ≠ .unsent → f o = o

theorem Responder.settles_send {R : Type} (r : R) : Responder.Settles (Responder.send r) where
  unsent := by simp [Responder.send]
  other o h := by
    cases o with
    | unsent => exact absurd rfl h
    | _ => rfl

theorem Responder.settles_cancel {R : Type} :
    Responder.Settles (Responder.cancel : Responder R → Responder R) where
  unsent := by simp [Responder.cancel]
  other o h := by
    cases o with
    | unsent => exact absurd rfl h
    | _ => rfl

namespace Owned

/-- Nothing is sent, but the `Sender`s of a client may be moved. -/
theorem moved (hO : s.Owned) (h : ∀ c, (s.senders c).Perm (s'.senders c)) (hcalls : s'.calls = s.calls)
    (hresponder : s'.responder = s.responder) (hkeys : ∀ c, ((s'.entries c).map Prod.fst).Nodup)
    (hkeysLe : ∀ c p, p ∈ s'.entries c → p.1 ≤ s'.preNextGlobalId) (hphase : s'.phase = s.phase)
    (hcallCount : s'.callCount = s.callCount) (hclientCount : s.clientCount ≤ s'.clientCount)
    (hfresh : ∀ c, s'.clientCount ≤ c → s'.live c = false)
    (hsend : ∀ c, s'.sendTask c = .dropped → s'.messages c = [])
    (hgone : ∀ c, s'.sendTask c = .dropped → s'.recvTask c = false → s'.responders c = []) : s'.Owned where
  nodup c := (h c).nodup_iff.mp (hO.nodup c)
  owned c k := by
    unfold CallOf
    rw [hcalls, hresponder, ← (h c).mem_iff]
    exact hO.owned c k
  keys := hkeys
  keysLe := hkeysLe
  callLt := by
    rw [hcallCount, hcalls]
    exact hO.callLt
  client k call hk := (hO.client k call (hcalls ▸ hk)).trans_le hclientCount
  fresh := hfresh
  created := by
    rw [hphase, hresponder]
    exact hO.created
  sendGone := hsend
  gone := hgone
  returned := by
    rw [hphase, hresponder]
    exact hO.returned

/-- The `Sender`s of `ks` are used or dropped. -/
theorem settle (hO : s.Owned) {c : ClientId} {ks : List CallId}
    {f : Responder (TowerResult B E) → Responder (TowerResult B E)}
    (hf : Responder.Settles f) (hperm : (s.senders c).Perm (ks ++ s'.senders c))
    (hother : ∀ c', c' ≠ c → s'.senders c' = s.senders c')
    (hcalls : s'.calls = s.calls) (hr : ∀ k, s'.responder k = if k ∈ ks then f (s.responder k) else s.responder k)
    (hkeys : ∀ c, (s'.entries c).Sublist (s.entries c)) (hpre : s'.preNextGlobalId = s.preNextGlobalId)
    (hphase : s'.phase = s.phase)
    (hcallCount : s'.callCount = s.callCount) (hclientCount : s'.clientCount = s.clientCount)
    (hlive : s'.live = s.live) (hsend : ∀ c, s'.sendTask c = .dropped → s'.messages c = [])
    (hgone : ∀ c, s'.sendTask c = .dropped → s'.recvTask c = false → s'.responders c = []) : s'.Owned := by
  have hnd : (ks ++ s'.senders c).Nodup := hperm.nodup_iff.mp (hO.nodup c)
  have hks : ∀ k ∈ ks, s.CallOf c k ∧ s.responder k = .unsent := fun k hk =>
    (hO.owned c k).mp (hperm.mem_iff.mpr (List.mem_append_left _ hk))
  have hkeep : ∀ k, s.responder k ≠ .unsent → s'.responder k = s.responder k := fun k hne => by
    rw [hr k]
    split
    · exact hf.other _ hne
    · rfl
  have hunsent : ∀ k, s'.responder k = .unsent ↔ s.responder k = .unsent ∧ k ∉ ks := fun k => by
    rw [hr k]
    by_cases hk : k ∈ ks
    · simpa [hk, (hks k hk).2] using hf.unsent
    · simp [hk]
  have hcall : ∀ c k, s'.CallOf c k ↔ s.CallOf c k := fun c k => by unfold CallOf; rw [hcalls]
  refine ⟨fun c' => ?_, fun c' k => ?_, fun c' => ?_, fun c' p hp => ?_, ?_, ?_, ?_, fun k hp => ?_, hsend,
    hgone, fun k r hp => ?_⟩
  · by_cases h0 : c' = c
    · exact h0 ▸ (List.nodup_append.mp hnd).2.1
    · rw [hother c' h0]
      exact hO.nodup c'
  · rw [hcall, hunsent]
    by_cases h0 : c' = c
    · subst h0
      rw [← and_assoc, ← hO.owned, hperm.mem_iff, List.mem_append]
      refine ⟨fun hk => ⟨Or.inr hk, fun hk' => (List.nodup_append.mp hnd).2.2 k hk' k hk rfl⟩, ?_⟩
      rintro ⟨hk | hk, hn⟩
      · exact absurd hk hn
      · exact hk
    · rw [hother c' h0, hO.owned]
      refine ⟨fun h => ⟨h.1, h.2, fun hk => h0 ?_⟩, fun h => ⟨h.1, h.2.1⟩⟩
      obtain ⟨call, h1, h2⟩ := h.1
      obtain ⟨call', h3, h4⟩ := (hks k hk).1
      rw [h1] at h3
      cases h3
      exact h2.symm.trans h4
  · exact ((hkeys c').map Prod.fst).nodup (hO.keys c')
  · rw [hpre]
    exact hO.keysLe c' p ((hkeys c').subset hp)
  · rw [hcallCount, hcalls]
    exact hO.callLt
  · rw [hclientCount, hcalls]
    exact hO.client
  · rw [hclientCount, hlive]
    exact hO.fresh
  · rw [hphase] at hp
    have := hO.created k hp
    rw [hkeep k (by rw [this]; simp), this]
  · rw [hphase] at hp
    refine (hO.returned k r hp).imp_right fun h => ?_
    rw [hkeep k (by rw [h]; simp), h]

theorem client_lt (hO : s.Owned) {c : ClientId} {k : CallId} (hk : s.CallOf c k) : c < s.clientCount := by
  obtain ⟨call, hk, rfl⟩ := hk
  exact hO.client k call hk

/-- No `Sender` is in a client that is not there. -/
theorem senders_fresh (hO : s.Owned) {c : ClientId} (hc : s.clientCount ≤ c) : s.senders c = [] := by
  refine List.eq_nil_iff_forall_not_mem.mpr fun k hk => ?_
  obtain ⟨⟨call, h1, rfl⟩, -⟩ := (hO.owned c k).mp hk
  exact absurd (hO.client k call h1) (Nat.not_lt_of_le hc)

/-- The entry for `id`, apart from the others. -/
theorem lookup (hO : s.Owned) {c : ClientId} {id : Id} {k : CallId} (h : (s.responders c).lookup id = some k) :
    ∃ l₁ l₂, s.responders c = l₁ ++ (id, k) :: l₂ ∧ (s.responders c).filter (fun p => p.1 ≠ id) = l₁ ++ l₂ := by
  obtain ⟨l₁, l₂, hl, -⟩ := List.lookup_eq_some_iff.mp h
  have hnd : ((s.responders c).map Prod.fst).Nodup := by
    have := hO.keys c
    rw [entries, List.map_append] at this
    exact (List.nodup_append.mp this).2.1
  rw [hl, List.map_append, List.map_cons] at hnd
  refine ⟨l₁, l₂, hl, ?_⟩
  rw [hl, List.filter_append, List.filter_cons_of_neg (by simp)]
  obtain ⟨-, h2, h3⟩ := List.nodup_append.mp hnd
  congr 1
  · refine List.filter_eq_self.mpr fun p hp => ?_
    simpa using h3 p.1 (List.mem_map_of_mem hp) id List.mem_cons_self
  · refine List.filter_eq_self.mpr fun p hp => ?_
    have hmem : p.1 ∈ l₂.map Prod.fst := List.mem_map_of_mem hp
    have hne : p.1 ≠ id := fun h0 => (List.nodup_cons.mp h2).1 (h0 ▸ hmem)
    simpa using hne

theorem newClient (hO : s.Owned) {node : NodeId} {remote : Addr} {id : Id} {r : InboxRc}
    {net : Net (TowerPacket A B E)} (hid : s.preNextGlobalId ≤ id) (hs' : s' = { s with
      net := net
      preNextGlobalId := id
      clients := Function.update s.clients s.clientCount (some ⟨⟨node, id⟩, remote, r⟩)
      clientCount := s.clientCount + 1
      live := Function.update s.live s.clientCount true
      messages := Function.update s.messages s.clientCount []
      sendTask := Function.update s.sendTask s.clientCount .receiving
      recvTask := Function.update s.recvTask s.clientCount true
      responders := Function.update s.responders s.clientCount [] }) : s'.Owned := by
  have hnew : s'.sendTask s.clientCount = .receiving ∧ s'.messages s.clientCount = [] ∧
      s'.responders s.clientCount = [] := by
    subst hs'
    simp
  have hold : ∀ {c}, c ≠ s.clientCount → s'.sendTask c = s.sendTask c ∧ s'.messages c = s.messages c ∧
      s'.responders c = s.responders c ∧ s'.recvTask c = s.recvTask c ∧ s'.live c = s.live c := fun {c} h0 => by
    subst hs'
    simp [h0]
  have hentries : ∀ {c}, c ≠ s.clientCount → s'.entries c = s.entries c := fun {c} h0 => by
    unfold entries
    rw [(hold h0).1, (hold h0).2.2.1]
  have hnone : s'.entries s.clientCount = [] := by
    unfold entries
    rw [hnew.1, hnew.2.2]
    rfl
  have hid' : s'.preNextGlobalId = id := by rw [hs']
  refine hO.moved (fun c => ?_) (by rw [hs']) (by rw [hs']) (fun c => ?_) (fun c p hp => ?_) (by rw [hs'])
    (by rw [hs']) (by rw [hs']; exact Nat.le_succ _) (fun c hc => ?_) (fun c hs => ?_) (fun c hs hr => ?_) <;>
    by_cases h0 : c = s.clientCount
  · subst h0
    rw [hO.senders_fresh le_rfl]
    unfold senders
    rw [hnone, hnew.2.1]
    rfl
  · unfold senders
    rw [hentries h0, (hold h0).2.1]
  · subst h0
    rw [hnone]
    exact List.nodup_nil
  · rw [hentries h0]
    exact hO.keys c
  · subst h0
    rw [hnone] at hp
    cases hp
  · rw [hid']
    exact (hO.keysLe c p (hentries h0 ▸ hp)).trans hid
  · subst h0 hs'
    exact absurd hc (Nat.not_succ_le_self _)
  · rw [(hold h0).2.2.2.2]
    subst hs'
    exact hO.fresh c (Nat.le_of_succ_le hc)
  · exact h0 ▸ hnew.2.1
  · rw [(hold h0).2.1]
    exact hO.sendGone c ((hold h0).1 ▸ hs)
  · exact h0 ▸ hnew.2.2
  · rw [(hold h0).2.2.1]
    exact hO.gone c ((hold h0).1 ▸ hs) ((hold h0).2.2.2.1 ▸ hr)

/-- A call is put into the channel. -/
theorem queue (hO : s.Owned) {k : CallId} {call : Call A} (hk : s.calls k = some call) (hp : s.phase k = .created)
    (ho : s.sendTask call.client ≠ .dropped) (hs' : s' = { s with
      messages := Function.update s.messages call.client (s.messages call.client ++ [k])
      phase := Function.update s.phase k .sending
      responder := Function.update s.responder k .unsent }) : s'.Owned := by
  have hout : ∀ c, k ∉ s.senders c := fun c hmem => by
    have := ((hO.owned c k).mp hmem).2
    rw [hO.created k hp] at this
    cases this
  have hperm : (s'.senders call.client).Perm (k :: s.senders call.client) := by
    subst hs'
    simp only [senders, Function.update_self, List.append_assoc, List.singleton_append]
    exact List.perm_middle
  have hother : ∀ {c}, c ≠ call.client → s'.senders c = s.senders c := fun {c} h0 => by
    subst hs'
    simp [senders, entries, h0]
  have hresponder : ∀ {k'}, k' ≠ k → s'.responder k' = s.responder k' := fun h0 => by
    subst hs'
    exact Function.update_of_ne h0 _ _
  have hself : s'.responder k = .unsent := by
    subst hs'
    exact Function.update_self _ _ _
  have hphase : ∀ {k'}, k' ≠ k → s'.phase k' = s.phase k' := fun h0 => by
    subst hs'
    exact Function.update_of_ne h0 _ _
  have hsending : s'.phase k = .sending := by
    subst hs'
    exact Function.update_self _ _ _
  have hcall : ∀ c k', s'.CallOf c k' ↔ s.CallOf c k' := fun c k' => by rw [hs']; rfl
  refine ⟨fun c => ?_, fun c k' => ?_, ?_, ?_, ?_, ?_, ?_, fun k' hp' => ?_, fun c hs => ?_, ?_,
    fun k' r hp' => ?_⟩
  · by_cases h0 : c = call.client
    · subst h0
      exact hperm.nodup_iff.mpr (List.nodup_cons.mpr ⟨hout _, hO.nodup _⟩)
    · rw [hother h0]
      exact hO.nodup c
  · rw [hcall]
    by_cases hkk : k' = k
    · subst hkk
      rw [hself]
      by_cases h0 : c = call.client
      · subst h0
        simp [hperm.mem_iff, CallOf, hk]
      · rw [hother h0]
        simp [hout, CallOf, hk, Ne.symm h0]
    · rw [hresponder hkk, ← hO.owned]
      by_cases h0 : c = call.client
      · subst h0
        simp [hperm.mem_iff, hkk]
      · rw [hother h0]
  · subst hs'
    exact hO.keys
  · subst hs'
    exact hO.keysLe
  · subst hs'
    exact hO.callLt
  · subst hs'
    exact hO.client
  · subst hs'
    exact hO.fresh
  · by_cases hkk : k' = k
    · rw [hkk, hsending] at hp'
      cases hp'
    · rw [hresponder hkk]
      exact hO.created k' (hphase hkk ▸ hp')
  · by_cases h0 : c = call.client
    · subst h0 hs'
      exact absurd hs ho
    · subst hs'
      exact (Function.update_of_ne h0 _ _).trans (hO.sendGone c hs)
  · subst hs'
    exact hO.gone
  · by_cases hkk : k' = k
    · rw [hkk, hsending] at hp'
      cases hp'
    · rw [hresponder hkk]
      exact hO.returned k' r (hphase hkk ▸ hp')

/-- `send_task` takes a request out of the channel. -/
theorem send (hO : s.Owned) {c : ClientId} {k : CallId} {messages : List CallId} {id : Id}
    {net : Net (TowerPacket A B E)}
    {log : List (TowerObs B E)} (hs : s.sendTask c = .receiving) (hm : s.messages c = k :: messages)
    (hid : s.preNextGlobalId < id) (hs' : s' = { s with
      net := net
      preNextGlobalId := id
      messages := Function.update s.messages c messages
      sendTask := Function.update s.sendTask c (.sending id k)
      log := log }) : s'.Owned := by
  have hself : s'.entries c = (id, k) :: s.entries c ∧ s'.messages c = messages := by
    subst hs'
    simp [entries, SendTask.entries, hs]
  have hother : ∀ {c'}, c' ≠ c → s'.entries c' = s.entries c' ∧ s'.messages c' = s.messages c' ∧
      s'.sendTask c' = s.sendTask c' :=
    fun {c'} h0 => by
      subst hs'
      simp [entries, h0]
  have hne : s'.sendTask c ≠ .dropped := by
    subst hs'
    simp
  have hid' : s'.preNextGlobalId = id := by rw [hs']
  refine hO.moved (fun c' => ?_) (by rw [hs']) (by rw [hs']) (fun c' => ?_) (fun c' p hp => ?_) (by rw [hs'])
    (by rw [hs']) (by rw [hs']) (by rw [hs']; exact hO.fresh) (fun c' hd => ?_) (fun c' hd hr => ?_) <;>
    by_cases h0 : c' = c
  · subst h0
    unfold senders
    rw [hself.1, hself.2, hm, List.map_cons, List.cons_append]
    exact List.perm_middle.symm
  · unfold senders
    rw [(hother h0).1, (hother h0).2.1]
  · subst h0
    rw [hself.1, List.map_cons, List.nodup_cons]
    refine ⟨fun hmem => ?_, hO.keys c'⟩
    obtain ⟨p, hp, h1⟩ := List.mem_map.mp hmem
    exact absurd (hO.keysLe c' p hp) (h1 ▸ Nat.not_le_of_lt hid)
  · rw [(hother h0).1]
    exact hO.keys c'
  · subst h0
    rw [hid']
    rcases List.mem_cons.mp (hself.1 ▸ hp) with rfl | hp
    · exact le_rfl
    · exact (hO.keysLe c' p hp).trans hid.le
  · rw [hid']
    exact (hO.keysLe c' p ((hother h0).1 ▸ hp)).trans hid.le
  · exact absurd (h0 ▸ hd) hne
  · rw [(hother h0).2.1]
    exact hO.sendGone c' ((hother h0).2.2 ▸ hd)
  · exact absurd (h0 ▸ hd) hne
  · rw [(hother h0).2.2] at hd
    subst hs'
    exact hO.gone c' hd hr

/-- The future of `net.send` is ready: the `Sender` goes into the map, or an error through it. -/
theorem register (hO : s.Owned) {c : ClientId} {id : Id} {k : CallId} (hs : s.sendTask c = .sending id k)
    (hs' : s' = { s with
      sendTask := Function.update s.sendTask c .receiving
      responders := Function.update s.responders c ((id, k) :: s.responders c) }) : s'.Owned := by
  have hentries : ∀ c', s'.entries c' = s.entries c' := fun c' => by
    subst hs'
    by_cases h0 : c' = c
    · subst h0
      simp [entries, SendTask.entries, hs]
    · simp [entries, h0]
  have hdropped : ∀ {c'}, s'.sendTask c' = .dropped → c' ≠ c ∧ s.sendTask c' = .dropped := fun {c'} hd => by
    subst hs'
    by_cases h0 : c' = c
    · subst h0
      simp at hd
    · exact ⟨h0, by simpa [h0] using hd⟩
  refine hO.moved (fun c' => ?_) (by rw [hs']) (by rw [hs']) (fun c' => hentries c' ▸ hO.keys c')
    (fun c' p hp => ?_) (by rw [hs']) (by rw [hs']) (by rw [hs']) (by rw [hs']; exact hO.fresh) (fun c' hd => ?_)
    (fun c' hd hr => ?_)
  · unfold senders
    rw [hentries, hs']
  · have := hO.keysLe c' p (hentries c' ▸ hp)
    rwa [hs']
  · have := hO.sendGone c' (hdropped hd).2
    rwa [hs']
  · obtain ⟨h0, hd'⟩ := hdropped hd
    subst hs'
    exact (Function.update_of_ne h0 _ _).trans (hO.gone c' hd' hr)

/-- An error of `net.send` goes to the call. -/
theorem fail (hO : s.Owned) {c : ClientId} {id : Id} {k : CallId} (r : TowerResult B E) {log : List (TowerObs B E)}
    (hs : s.sendTask c = .sending id k) (hs' : s' = { s.onResponders [k] (.send r) with
      sendTask := Function.update s.sendTask c .receiving
      log := log }) : s'.Owned := by
  have hself : s.senders c = s.messages c ++ k :: (s.responders c).map Prod.snd ∧
      s'.senders c = s.messages c ++ (s.responders c).map Prod.snd := by
    subst hs'
    simp [senders, entries, SendTask.entries, hs, onResponders]
  have hother : ∀ {c'}, c' ≠ c → s'.senders c' = s.senders c' := fun {c'} h0 => by
    subst hs'
    simp [senders, entries, h0, onResponders]
  have hdropped : ∀ {c'}, s'.sendTask c' = .dropped → s.sendTask c' = .dropped := fun {c'} hd => by
    subst hs'
    by_cases h0 : c' = c
    · subst h0
      simp at hd
    · simpa [h0] using hd
  refine hO.settle (c := c) (Responder.settles_send r) ?_ (fun c' h0 => hother h0) (by rw [hs']; rfl)
    (fun k' => by rw [hs']; rfl) (fun c' => ?_) (by rw [hs']; rfl) (by rw [hs']; rfl) (by rw [hs']; rfl)
      (by rw [hs']; rfl)
    (by rw [hs']; rfl) (fun c' hd => ?_) (fun c' hd hr => ?_)
  · rw [hself.1, hself.2]
    exact List.perm_middle
  · exact entries_receiving (by rw [hs']) (by rw [hs']; rfl) c'
  · have := hO.sendGone c' (hdropped hd)
    rwa [hs']
  · have hd' := hdropped hd
    subst hs'
    exact hO.gone c' hd' hr

/-- Some `Sender`s are taken out of the map, and used or dropped. -/
theorem takeOut (hO : s.Owned) {c : ClientId} {ks : List CallId}
    {f : Responder (TowerResult B E) → Responder (TowerResult B E)}
    (hf : Responder.Settles f) {responders : List (Id × CallId)} {net : Net (TowerPacket A B E)}
    {recvTask : ClientId → Bool} {log : List (TowerObs B E)} (hsub : responders.Sublist (s.responders c))
    (hperm : ((s.responders c).map Prod.snd).Perm (ks ++ responders.map Prod.snd))
    (hrecv : ∀ c', c' ≠ c ∨ responders ≠ [] → recvTask c' = s.recvTask c')
    (hs' : s' = { s.onResponders ks f with
      net := net
      recvTask := recvTask
      responders := Function.update s.responders c responders
      log := log }) : s'.Owned := by
  have hself : s'.entries c = (s.sendTask c).entries ++ responders := by
    subst hs'
    simp [entries, onResponders]
  have hother : ∀ {c'}, c' ≠ c → s'.entries c' = s.entries c' := fun {c'} h0 => by
    subst hs'
    simp [entries, h0, onResponders]
  have hmessages : s'.messages = s.messages := by rw [hs']; rfl
  refine hO.settle (c := c) hf ?_ (fun c' h0 => ?_) (by rw [hs']; rfl)
    (fun k' => by rw [hs']; rfl) (fun c' => ?_) (by rw [hs']; rfl) (by rw [hs']; rfl) (by rw [hs']; rfl)
      (by rw [hs']; rfl)
    (by rw [hs']; rfl) (fun c' hd => ?_) (fun c' hd hr => ?_)
  · unfold senders
    rw [hself, hmessages]
    simp only [entries, List.map_append]
    refine ((hperm.append_left _).append_left _).trans ?_
    exact ((List.perm_append_comm_assoc _ ks _).append_left _).trans (List.perm_append_comm_assoc _ ks _)
  · unfold senders
    rw [hother h0, hmessages]
  · exact entries_takeOut hsub (by rw [hs']; rfl) (by rw [hs']) c'
  · subst hs'
    exact hO.sendGone c' hd
  · subst hs'
    by_cases h0 : c' = c
    · subst h0
      refine (Function.update_self _ _ _).trans ?_
      by_contra hne
      have := hO.gone c' hd ((hrecv c' (Or.inr hne)).symm.trans hr)
      rw [this] at hsub
      exact hne (List.sublist_nil.mp hsub)
    · exact (Function.update_of_ne h0 _ _).trans (hO.gone c' hd ((hrecv c' (Or.inl h0)).symm.trans hr))

/-- `send_task` is gone, with what is in the channel, and the map too when `recv_task` is gone. -/
theorem dropSend (hO : s.Owned) (c : ClientId) : (s.dropSend c).Owned := by
  generalize hs' : s.dropSend c = s'
  rw [dropSend_eq] at hs'
  have hself : s'.sendTask c = .dropped ∧ s'.messages c = [] := by
    subst hs'
    simp
  have hother : ∀ {c'}, c' ≠ c → s'.sendTask c' = s.sendTask c' ∧ s'.messages c' = s.messages c' ∧
      s'.responders c' = s.responders c' :=
    fun {c'} h0 => by
      subst hs'
      by_cases hr : s.recvTask c = true <;> simp [h0, hr]
  have hrecv : s'.recvTask = s.recvTask := by rw [← hs']; rfl
  -- what stays in the map
  have hresponders : s.recvTask c = true ∧ s'.responders c = s.responders c ∨ s'.responders c = [] := by
    subst hs'
    by_cases hr : s.recvTask c = true <;> simp [hr]
  have hperm : (s.senders c).Perm (s.cutOff c ++ s'.senders c) := by
    subst hs'
    by_cases hr : s.recvTask c = true <;> simp [senders, entries, SendTask.entries, cutOff, hr]
  refine hO.settle (c := c) Responder.settles_cancel hperm (fun c' h0 => ?_) (by rw [← hs']; rfl)
    (fun k => by rw [← hs']; rfl) (fun c' => ?_) (by rw [← hs']; rfl) (by rw [← hs']; rfl)
      (by rw [← hs']; rfl) (by rw [← hs']; rfl)
    (by rw [← hs']; rfl) (fun c' hd => ?_) (fun c' hd hr => ?_)
  · unfold senders entries
    rw [(hother h0).1, (hother h0).2.1, (hother h0).2.2]
  · rw [← hs', ← dropSend_eq]
    exact entries_dropSend c c'
  · by_cases h0 : c' = c
    · exact h0 ▸ hself.2
    · rw [(hother h0).2.1]
      exact hO.sendGone c' ((hother h0).1 ▸ hd)
  · rw [hrecv] at hr
    by_cases h0 : c' = c
    · subst h0
      rcases hresponders with ⟨h, -⟩ | h
      · rw [h] at hr
        cases hr
      · exact h
    · rw [(hother h0).2.2]
      exact hO.gone c' ((hother h0).1 ▸ hd) hr

theorem act (hO : s.Owned) (hpre : s.preNextGlobalId < 2 ^ 64) (h : Act s s') : s'.Owned := by
  cases h with
  | newId id h =>
    obtain ⟨rfl, -⟩ := newId_ok h hpre
    exact { hO with keysLe := fun c p hp => (hO.keysLe c p hp).trans (Nat.le_succ _) }
  | newClient node remote id r net hid h =>
    obtain ⟨rfl, -⟩ := newId_ok hid hpre
    exact hO.newClient (Nat.le_succ _) rfl
  | call c req hl =>
    have hne : ∀ {k call}, s.calls k = some call → k ≠ s.callCount := fun {k call} hk h0 => by
      rw [h0, hO.callLt _ le_rfl] at hk
      cases hk
    have hc : c < s.clientCount := by
      by_contra h0
      rw [hO.fresh c (Nat.le_of_not_lt h0)] at hl
      cases hl
    refine { hO with
      owned := fun c' k => ?_
      callLt := fun k hk => (Function.update_of_ne (Nat.ne_of_gt hk) _ _).trans
        (hO.callLt k (Nat.le_of_succ_le hk))
      client := fun k call hk => ?_
      created := fun k hp => ?_
      returned := fun k r hp => ?_ }
    · refine (hO.owned c' k).trans ?_
      by_cases h0 : k = s.callCount
      · subst h0
        simp [CallOf, hO.callLt s.callCount le_rfl]
      · simp [CallOf, h0]
    · by_cases h0 : k = s.callCount
      · subst h0
        simp only [Function.update_self, Option.some.injEq] at hk
        subst hk
        exact hc
      · exact hO.client k call (by simpa [h0] using hk)
    · by_cases h0 : k = s.callCount
      · subst h0
        exact Function.update_self _ _ _
      · exact (Function.update_of_ne h0 _ _).trans (hO.created k (by simpa [h0] using hp))
    · by_cases h0 : k = s.callCount
      · subst h0
        simp at hp
      · simpa [h0] using hO.returned k r (by simpa [h0] using hp)
  | queue k call hk hp ho => exact hO.queue hk hp ho rfl
  | waits k hp =>
    refine { hO with created := fun k' hp' => ?_, returned := fun k' r hp' => ?_ } <;> by_cases h0 : k' = k
    · subst h0
      simp at hp'
    · exact hO.created k' (by simpa [h0] using hp')
    · subst h0
      simp at hp'
    · exact hO.returned k' r (by simpa [h0] using hp')
  | returns k r hr =>
    refine { hO with created := fun k' hp' => ?_, returned := fun k' r' hp' => ?_ } <;> by_cases h0 : k' = k
    · subst h0
      simp [returns] at hp'
    · exact hO.created k' (by simpa [returns, h0] using hp')
    · subst h0
      simp only [returns, Function.update_self, CallPhase.returned.injEq] at hp'
      subst hp'
      exact hr
    · exact hO.returned k' r' (by simpa [returns, h0] using hp')
  | dropCall k hp =>
    refine { hO with created := fun k' hp' => ?_, returned := fun k' r hp' => ?_ } <;> by_cases h0 : k' = k
    · subst h0
      simp at hp'
    · exact hO.created k' (by simpa [h0] using hp')
    · subst h0
      simp at hp'
    · exact hO.returned k' r (by simpa [h0] using hp')
  | hangUp c h =>
    refine { hO with fresh := fun c' hc' => ?_ }
    by_cases h0 : c' = c
    · subst h0
      exact Function.update_self _ _ _
    · exact (Function.update_of_ne h0 _ _).trans (hO.fresh c' hc')
  | dropSend c => exact hO.dropSend c
  | dropRecv c s' hr h =>
    obtain ⟨cl, net, hc, hnet, rfl⟩ := dropRecv_ok h
    split
    · rename_i ho
      have hne : ∀ {c'}, s.sendTask c' = .dropped → c' ≠ c := fun hd h0 => by simp [isOpen, ← h0, hd] at ho
      exact { hO with gone := fun c' hd hr' => hO.gone c' hd (by simpa [hne hd] using hr') }
    · refine hO.takeOut (c := c) Responder.settles_cancel (List.nil_sublist _) (by simp) (fun c' h0 => ?_) rfl
      rcases h0 with h0 | h0
      · exact Function.update_of_ne h0 _ _
      · exact absurd rfl h0
  | send c cl k messages call id hc hs hm hk hid =>
    obtain ⟨rfl, -⟩ := newId_ok hid hpre
    exact hO.send hs hm (Nat.lt_succ_self _) rfl
  | register c id k hs => exact hO.register hs rfl
  | fail c id k kind hs => exact hO.fail _ hs rfl
  | clear c cl kind net hc hr h =>
    exact hO.takeOut (c := c) (Responder.settles_send _) (List.nil_sublist _) (by simp) (fun _ _ => rfl) rfl
  | answer c cl rc w result id k msgs net hc hr hm h hw hv hk =>
    obtain ⟨l₁, l₂, hl, hf⟩ := hO.lookup hk
    refine hO.takeOut (c := c) (Responder.settles_send _) List.filter_sublist ?_ (fun _ _ => rfl) rfl
    rw [hf, hl, List.map_append, List.map_cons, List.map_append]
    exact List.perm_middle
  | serverEnds v sv phase s' hv hp hph h =>
    obtain ⟨net, hnet, h⟩ := inNet_bind.mp h
    cases h
    exact { hO with }
  | _ => exact { hO with }

end Owned

theorem owned_install : (install : TowerCx A B E).Owned where
  nodup _ := List.nodup_nil
  owned c k := by simp [install, senders, entries, SendTask.entries, CallOf]
  keys _ := List.nodup_nil
  keysLe _ _ h := by cases h
  callLt _ _ := rfl
  client _ _ h := by cases h
  fresh _ _ := rfl
  created _ h := by cases h
  sendGone _ _ := rfl
  gone _ _ _ := rfl
  returned _ _ h := by cases h

/-! ## Tasks -/

/-- What is left of the tasks of a client that is dropped: the one that is polled, which goes after its poll. -/
def Hung (s : TowerCx A B E) : Prop :=
  ∀ t : ClientTask, s.live t.client = false → s.hasTask t = true → s.polled = some t ∧ s.aborted = true

/-- Only `Client::new` spawns the tasks of a client. -/
theorem Act.hasTask (h : Act s s') {t : ClientTask} (ht : s'.hasTask t = true) :
    s.hasTask t = true ∨ t.client = s.clientCount ∧ s.clientCount < s'.clientCount := by
  -- `send_task` goes on
  have sends : ∀ {c : ClientId} {task : SendTask}, s.sendTask c ≠ .dropped →
      s'.sendTask = Function.update s.sendTask c task →
      s'.recvTask = s.recvTask → s.hasTask t = true := fun {c task} hs hsend hrecv => by
    cases t with
    | send c' =>
      by_cases h0 : c' = c
      · subst h0
        simpa [TowerCx.hasTask, isOpen] using hs
      · simpa [TowerCx.hasTask, isOpen, hsend, h0] using ht
    | recv c' => simpa [TowerCx.hasTask, hrecv] using ht
  cases h with
  | newClient node remote id r net hid h =>
    by_cases h0 : t.client = s.clientCount
    · exact Or.inr ⟨h0, Nat.lt_succ_self _⟩
    · cases t with
      | send c => exact Or.inl (by simpa [TowerCx.hasTask, isOpen, show c ≠ s.clientCount from h0] using ht)
      | recv c => exact Or.inl (by simpa [TowerCx.hasTask, show c ≠ s.clientCount from h0] using ht)
  | dropSend c => exact Or.inl (hasTask_dropSend ht).2
  | dropRecv c s' hr h => exact Or.inl (hasTask_dropRecv h ht).2
  | send c cl k messages call id hc hs hm hk hid => exact Or.inl (sends (by rw [hs]; simp) rfl rfl)
  | register c id k hs => exact Or.inl (sends (by rw [hs]; simp) rfl rfl)
  | fail c id k kind hs => exact Or.inl (sends (by rw [hs]; simp) rfl rfl)
  | serverEnds v sv phase s' hv hp hph h =>
    obtain ⟨net, hnet, h⟩ := inNet_bind.mp h
    cases h
    exact Or.inl ht
  | _ => exact Or.inl ht

theorem Act.clientCount_le (h : Act s s') : s.clientCount ≤ s'.clientCount := by
  cases h with
  | newClient node remote id r net hid h => exact Nat.le_succ _
  | dropSend c =>
    rw [dropSend_eq]
    exact le_rfl
  | dropRecv c s' hr h =>
    obtain ⟨cl, net, hc, hnet, rfl⟩ := dropRecv_ok h
    split <;> exact le_rfl
  | serverEnds v sv phase s' hv hp hph h =>
    obtain ⟨net, hnet, h⟩ := inNet_bind.mp h
    cases h
    exact le_rfl
  | _ => exact le_rfl

theorem Acts.clientCount_le (h : Acts s s') : s.clientCount ≤ s'.clientCount := by
  induction h with
  | refl => exact le_rfl
  | tail _ h ih => exact ih.trans h.clientCount_le

theorem Hung.act (hH : s.Hung) (h : Act s s') : s'.Hung := by
  have hold := fun t : ClientTask => h.hasTask (t := t)
  cases h with
  | newClient node remote id r net hid h =>
    intro t hl ht
    -- the new client is not dropped
    have h0 : t.client ≠ s.clientCount := fun h0 => by simp [h0] at hl
    exact hH t (by simpa [h0] using hl) ((hold t ht).resolve_right fun h => h0 h.1)
  | pollTask t hp =>
    intro t' hl ht
    have := (hH t' hl ht).1
    rw [hp] at this
    cases this
  | abortPolled t hp => exact fun t' hl ht => ⟨(hH t' hl ht).1, rfl⟩
  | endPoll h =>
    intro t hl ht
    obtain ⟨hp, ha⟩ := hH t hl ht
    rw [h t hp ht] at ha
    cases ha
  | hangUp c h =>
    intro t hl ht
    by_cases h0 : t.client = c
    · exact h t h0 ht
    · exact hH t (by simpa [h0] using hl) ht
  | dropSend c =>
    intro t hl ht
    have h0 := hH t (by rw [dropSend_eq] at hl; exact hl) (hasTask_dropSend ht).2
    rw [dropSend_eq]
    exact h0
  | dropRecv c s' hr h =>
    intro t hl ht
    have hin := (hasTask_dropRecv h ht).2
    obtain ⟨cl, net, hc, hnet, rfl⟩ := dropRecv_ok h
    split at hl <;> rename_i ho
    · rw [if_pos ho]
      exact hH t hl hin
    · rw [if_neg ho]
      exact hH t hl hin
  | send c cl k messages call id hc hs hm hk hid =>
    exact fun t hl ht => hH t hl ((hold t ht).resolve_right fun h => Nat.lt_irrefl _ h.2)
  | register c id k hs => exact fun t hl ht => hH t hl ((hold t ht).resolve_right fun h => Nat.lt_irrefl _ h.2)
  | fail c id k kind hs => exact fun t hl ht => hH t hl ((hold t ht).resolve_right fun h => Nat.lt_irrefl _ h.2)
  | serverEnds v sv phase s' hv hp hph h =>
    obtain ⟨net, hnet, h⟩ := inNet_bind.mp h
    cases h
    exact hH
  | _ => exact hH

theorem hung_install : (install : TowerCx A B E).Hung := fun t _ h => by cases t <;> cases h

end TowerCx

end Refault
