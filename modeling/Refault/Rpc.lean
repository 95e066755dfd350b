import Refault.TowerInv

/-!
# Refault.Rpc — every call gets its own answer

On top of the sockets and the responders (`Refault.TowerInv`): what the log says of the requests of the
clients (`Told`) and of the jobs of the servers (`Served`).  From these: the result of a call is what a
service answered to its request, a service gets a request once, and the panics of `recv_task` are those of a
response that its map has no responder for.
-/

namespace Refault

namespace TowerCx

variable {A B E : Type} {s s' : TowerCx A B E}

/-- The packet `rc` has the request of the call `k` in it, under the id. -/
structure Asked (s : TowerCx A B E) (id : Id) (k : CallId) (rc : PacketRc) (call : Call A) (cl : Client) :
    Prop where
  sent : .sent id k rc ∈ s.log
  ofCall : s.calls k = some call
  ofClient : s.clients call.client = some cl
  packet : s.net.packets rc = some
    (.new cl.localAddr cl.remote ⟨requestTy, .request (.start call.req id)⟩ .ofPacket)

/-- A server at `addr` has got the request of a call. -/
def Heard (s : TowerCx A B E) (addr : Addr) (request : Request A) : Prop :=
  ∃ k call cl, s.Asked request.id k request.rc call cl ∧ request.req = call.req ∧ request.address = cl.localAddr ∧
    addr = cl.remote ∧ 0 < s.net.row request.rc .received

/-- The packet `rc` has the answer of the job `j` in it. -/
structure Replied (s : TowerCx A B E) (j : JobId) (result : Except E B) (rc : PacketRc) (job : Job A) : Prop where
  replied : .replied j result rc ∈ s.log
  ofJob : s.jobs j = some job
  packet : s.net.packets rc =
    some (.new job.localAddr job.request.address
      ⟨responseTy, .response (.complete result job.request.id)⟩ .ofPacket)

/-! ## What stays -/

/-- What is there is still there later. -/
structure Later (s s' : TowerCx A B E) : Prop where
  log : s.log ⊆ s'.log
  calls : ∀ k call, s.calls k = some call → s'.calls k = some call
  clients : ∀ c cl, s.clients c = some cl → s'.clients c = some cl
  jobs : ∀ j job, s.jobs j = some job → s'.jobs j = some job
  packets : ∀ rc w, s.net.packets rc = some w → s'.net.packets rc = some w
  received : ∀ rc, 0 < s.net.row rc .received → 0 < s'.net.row rc .received

theorem Later.refl (s : TowerCx A B E) : s.Later s :=
  ⟨fun _ h => h, fun _ _ h => h, fun _ _ h => h, fun _ _ h => h, fun _ _ h => h, fun _ h => h⟩

theorem Asked.later {id : Id} {k : CallId} {rc : PacketRc} {call : Call A} {cl : Client}
    (h : s.Asked id k rc call cl) (hL : s.Later s') : s'.Asked id k rc call cl :=
  ⟨hL.log h.sent, hL.calls _ _ h.ofCall, hL.clients _ _ h.ofClient, hL.packets _ _ h.packet⟩

theorem Heard.later {addr : Addr} {request : Request A} (h : s.Heard addr request) (hL : s.Later s') :
    s'.Heard addr request := by
  obtain ⟨k, call, cl, h1, h2, h3, h4, h5⟩ := h
  exact ⟨k, call, cl, h1.later hL, h2, h3, h4, hL.received _ h5⟩

theorem Replied.later {j : JobId} {result : Except E B} {rc : PacketRc} {job : Job A}
    (h : s.Replied j result rc job) (hL : s.Later s') : s'.Replied j result rc job :=
  ⟨hL.log h.replied, hL.jobs _ _ h.ofJob, hL.packets _ _ h.packet⟩

section Later

variable {net : Net (TowerPacket A B E)}

/-- Messages are passed on. -/
theorem Later.passed (ha : Net.Acts s.net net) (hw : net.wiring = s.net.wiring) :
    s.Later ({ s with net := net } : TowerCx A B E) :=
  { Later.refl s with
    packets := fun rc _ h => (congrFun (congrArg Net.Wiring.packets hw) rc).trans h
    received := fun _ h => ha.received h }

theorem Later.newPacket (hW : s.Wired) (src dst : Addr) (packet : Packet (TowerPacket A B E))
    (level : ServiceLevel) :
    s.Later ({ s with net := (s.net.newPacket src dst packet level).2 } : TowerCx A B E) := by
  refine { Later.refl s with packets := fun rc w h => ?_, received := fun rc h => h }
  have hne : rc ≠ s.net.packetCount := fun h0 => by
    rw [h0, hW.typed.known _ le_rfl] at h
    cases h
  exact (Function.update_of_ne hne _ _).trans h

theorem Later.opened {key : Key} {r : InboxRc} (hW : s.Wired) (h : s.net.openSocket key = .ok (r, net)) :
    s.Later ({ s with net := net } : TowerCx A B E) := by
  obtain ⟨-, -, hw⟩ := Net.openSocket_ok h
  have ha : Net.Acts s.net net := .single (.openSocket key _ net hW.dropped h)
  exact { Later.refl s with
    packets := fun rc _ h => (congrFun (congrArg Net.Wiring.packets hw) rc).trans h
    received := fun _ h => ha.received h }

theorem Later.closed {r : InboxRc} {key : Key} (hW : s.Wired) (hs : s.net.sockets r ≠ none)
    (hk : s.net.created r = some key)
    (h : s.net.dropSocket r ⟨key.1, key.2⟩ = .ok net) : s.Later ({ s with net := net } : TowerCx A B E) := by
  have hw := Net.dropSocket_ok h
  have ha : Net.Acts s.net net := .single (.dropSocket r _ net (hW.socket hs hk) h)
  exact { Later.refl s with
    packets := fun rc _ h => (congrFun (congrArg Net.Wiring.packets hw) rc).trans h
    received := fun _ h => ha.received h }

end Later

theorem Act.later (h : Act s s') (hW : s.Wired) (hO : s.Owned) : s.Later s' := by
  have note : ∀ os, s.log ⊆ s.log ++ os := List.subset_append_left s.log
  cases h with
  | newClient node remote id r net hid h =>
    refine { Later.opened hW h with clients := fun c cl hc => ?_ }
    have hne : c ≠ s.clientCount := fun h0 => by
      rw [h0, hW.clientLt _ le_rfl] at hc
      cases hc
    exact (Function.update_of_ne hne _ _).trans hc
  | call c req hl =>
    refine { Later.refl s with calls := fun k call hk => ?_ }
    have hne : k ≠ s.callCount := fun h0 => by
      rw [h0, hO.callLt _ le_rfl] at hk
      cases hk
    exact (Function.update_of_ne hne _ _).trans hk
  | dropSend c =>
    rw [dropSend_eq]
    exact { Later.refl s with }
  | dropRecv c s' hr h =>
    obtain ⟨cl, net, hc, hnet, rfl⟩ := dropRecv_ok h
    have hL := Later.closed hW (hW.clientSocket c cl hc hr) (hW.clientMade c cl hc) hnet
    split <;> exact { hL with }
  | send c cl k messages call id hc hs hm hk hid =>
    exact { Later.newPacket hW cl.localAddr cl.remote
      ⟨requestTy, .request (.start call.req id)⟩ .ofPacket with log := note _ }
  | fail c id k kind hs => exact { Later.refl s with log := note _ }
  | clear c cl kind net hc hr h =>
    obtain ⟨ha, hw⟩ := hW.client_receive hc hr h
    exact { Later.passed ha hw with log := note _ }
  | answer c cl rc w result id k msgs net hc hr hm h hw hv hk =>
    obtain ⟨ha, hwire⟩ := hW.client_receive hc hr h
    exact { Later.passed ha hwire with log := note _ }
  | runServer node port r net h => exact { Later.opened hW h with }
  | serverError v sv net hv hp h =>
    obtain ⟨ha, hw⟩ := hW.server_receive hv (Or.inl hp) h
    exact Later.passed ha hw
  | serverEnds v sv phase s' hv hp hph h =>
    obtain ⟨net, hnet, h⟩ := inNet_bind.mp h
    cases h
    exact { Later.closed hW (hW.serverSocket v sv hv hp) (hW.serverMade v sv hv) hnet with }
  | serverGets v sv rc w req id msgs net hv hp hm h hw hval =>
    obtain ⟨ha, hwire⟩ := hW.server_receive hv (Or.inl hp) h
    exact { Later.passed ha hwire with }
  | startJob v sv request hv hp =>
    refine { Later.refl s with jobs := fun j job hj => ?_ }
    have hne : j ≠ s.jobCount := fun h0 => by
      rw [h0, hW.jobLt _ le_rfl] at hj
      cases hj
    exact (Function.update_of_ne hne _ _).trans hj
  | reply j job result phase hj hp hph =>
    exact { Later.newPacket hW job.localAddr job.request.address
      ⟨responseTy, .response (.complete result job.request.id)⟩ .ofPacket with
      log := note _ }
  | net e net h =>
    obtain ⟨ha, hw⟩ := netEvent_act h
    exact Later.passed (.single ha) hw
  | _ => exact { Later.refl s with }

/-- A packet is taken out of an inbox, for the first time. -/
theorem Wired.gets (hW : s.Wired) {r : InboxRc} {key : Key} {rc : PacketRc} {msgs : List Msg}
    {net : Net (TowerPacket A B E)}
    (hs : s.net.sockets r ≠ none) (hk : s.net.created r = some key) (hm : s.net.buffer r = .packet rc :: msgs)
    (h : (s.net.receive r).pollReceive r key.2 none = .ok net) :
    (∃ w, s.net.packets rc = some w ∧ key = (w.header.dst, w.packet.ty)) ∧ s.net.row rc .received = 0 ∧
    0 < net.row rc .received := by
  have ha : Net.Acts s.net (s.net.receive r) := .single (.receive r hs)
  obtain ⟨w, hw, hkey, hok⟩ := (ha.tracked hW.registry hW.typed (hW.tracked rc)).kept.pollReceive_ok
    (ha.typed hW.registry hW.typed) none hk hm
  refine ⟨⟨w, hw, hkey⟩, ?_, ?_⟩
  · have hpos : 0 < s.net.row rc (.buffered r) := List.count_pos_iff.mpr (by rw [hm]; exact List.mem_cons_self)
    have hlt : rc < s.net.packetCount := by
      by_contra hle
      rw [((hW.tracked rc).kept.none (Nat.le_of_not_lt hle)).1] at hpos
      exact Nat.lt_irrefl 0 hpos
    obtain ⟨pl, hpl⟩ := (hW.tracked rc).kept.one hlt
    obtain rfl := hpl.row.eq_of_pos hpos
    exact hpl.row.other (by simp)
  · obtain rfl := Except.ok.inj (hok.symm.trans h)
    refine List.countP_pos_iff.mpr ⟨.received r rc w.packet.value w.header.src false, ?_,
      by simp [NetObs.isReceived]⟩
    exact (Net.collect_log (n := { ((((s.net.receive r).setBuffer r msgs).release rc).note
      (.received r rc w.packet.value w.header.src false)) with receivers := _ }) r).subset (by simp)

/-! ## Servers -/

/-- What the servers have done: every request they got was sent by a client and is handled once, and answered
once. -/
structure Served (s : TowerCx A B E) : Prop where
  replied : ∀ j result rc, .replied j result rc ∈ s.log → s.jobPhase j ≠ .computing ∧
    ∃ job, s.Replied j result rc job
  repliedOnce : ∀ j r rc r' rc', .replied j r rc ∈ s.log → .replied j r' rc' ∈ s.log → r = r' ∧ rc = rc'
  jobs : ∀ j job, s.jobs j = some job → s.Heard job.localAddr job.request
  readying : ∀ v sv request, s.servers v = some sv → s.serverPhase v = .readying request →
    s.Heard sv.localAddr request
  jobOnce : ∀ j j' job job', s.jobs j = some job → s.jobs j' = some job' → job.request.rc = job'.request.rc →
    j = j'
  readyOnce : ∀ v sv request j job, s.servers v = some sv → s.serverPhase v = .readying request →
    s.jobs j = some job → request.rc ≠ job.request.rc
  readyTwice : ∀ v v' sv sv' request request', s.servers v = some sv → s.servers v' = some sv' →
    s.serverPhase v = .readying request → s.serverPhase v' = .readying request' → request.rc = request'.rc → v = v'

namespace Served

/-- Nothing is done by servers. -/
theorem later (hS : s.Served) (hL : s.Later s')
    (hlog : ∀ j r rc, .replied j r rc ∈ s'.log → .replied j r rc ∈ s.log)
    (hjobs : s'.jobs = s.jobs) (hphase : ∀ j, s'.jobPhase j = .computing → s.jobPhase j = .computing)
    (hv : ∀ v sv request, s'.servers v = some sv → s'.serverPhase v = .readying request →
      s.servers v = some sv ∧ s.serverPhase v = .readying request) : s'.Served where
  replied j result rc h := by
    obtain ⟨h1, job, h2⟩ := hS.replied j result rc (hlog _ _ _ h)
    exact ⟨fun hp => h1 (hphase j hp), job, h2.later hL⟩
  repliedOnce j r rc r' rc' h h' := hS.repliedOnce j r rc r' rc' (hlog _ _ _ h) (hlog _ _ _ h')
  jobs j job h := (hS.jobs j job (hjobs ▸ h)).later hL
  readying v sv request h hp := (hS.readying v sv request (hv _ _ _ h hp).1 (hv _ _ _ h hp).2).later hL
  jobOnce j j' job job' h h' := hS.jobOnce j j' job job' (hjobs ▸ h) (hjobs ▸ h')
  readyOnce v sv request j job h hp hj :=
    hS.readyOnce v sv request j job (hv _ _ _ h hp).1 (hv _ _ _ h hp).2 (hjobs ▸ hj)
  readyTwice v v' sv sv' request request' h h' hp hp' :=
    hS.readyTwice v v' sv sv' request request' (hv _ _ _ h hp).1
    (hv _ _ _ h' hp').1 (hv _ _ _ h hp).2 (hv _ _ _ h' hp').2

/-- A server gets a request that no server has got before. -/
theorem gets (hS : s.Served) {v : ServerId} {sv : Server} {request : Request A} {net : Net (TowerPacket A B E)}
    (hv : s.servers v = some sv) (hnew : s.net.row request.rc .received = 0) (hs' : s' = { s with
      net := net
      serverPhase := Function.update s.serverPhase v (.readying request) })
    (hL : s.Later s') (hheard : s'.Heard sv.localAddr request) : s'.Served := by
  have hfresh : ∀ {addr : Addr} {request' : Request A}, s.Heard addr request' → request'.rc ≠ request.rc := by
    rintro addr request' ⟨k, call, cl, -, -, -, -, h⟩ h0
    rw [h0, hnew] at h
    exact Nat.lt_irrefl 0 h
  have hservers : s'.servers = s.servers := by rw [hs']
  have hjobs : s'.jobs = s.jobs := by rw [hs']
  have hlog : s'.log = s.log := by rw [hs']
  have hself : s'.serverPhase v = .readying request := by
    subst hs'
    exact Function.update_self _ _ _
  have hother : ∀ {v'}, v' ≠ v → s'.serverPhase v' = s.serverPhase v' := fun {v'} h0 => by
    subst hs'
    exact Function.update_of_ne h0 _ _
  refine ⟨fun j result rc h => ?_, ?_, fun j job h => (hS.jobs j job (hjobs ▸ h)).later hL,
    fun v' sv' request' h hp => ?_, ?_,
    fun v' sv' request' j job h hp hj => ?_, fun v₁ v₂ sv₁ sv₂ r₁ r₂ h₁ h₂ hp₁ hp₂ hrc => ?_⟩
  · obtain ⟨h1, job, h2⟩ := hS.replied j result rc (hlog ▸ h)
    refine ⟨?_, job, h2.later hL⟩
    rwa [hs']
  · rw [hlog]
    exact hS.repliedOnce
  · rw [hservers] at h
    by_cases h0 : v' = v
    · subst h0
      obtain rfl : sv' = sv := Option.some.inj (h.symm.trans hv)
      obtain rfl : request = request' := ServerPhase.readying.inj (hself.symm.trans hp)
      exact hheard
    · exact (hS.readying v' sv' request' h (hother h0 ▸ hp)).later hL
  · rw [hjobs]
    exact hS.jobOnce
  · rw [hservers] at h
    rw [hjobs] at hj
    by_cases h0 : v' = v
    · subst h0
      obtain rfl : request = request' := ServerPhase.readying.inj (hself.symm.trans hp)
      exact (hfresh (hS.jobs j job hj)).symm
    · exact hS.readyOnce v' sv' request' j job h (hother h0 ▸ hp) hj
  · rw [hservers] at h₁ h₂
    by_cases h0 : v₁ = v <;> by_cases h1 : v₂ = v
    · rw [h0, h1]
    · subst h0
      obtain rfl : request = r₁ := ServerPhase.readying.inj (hself.symm.trans hp₁)
      exact absurd hrc.symm (hfresh (hS.readying v₂ sv₂ r₂ h₂ (hother h1 ▸ hp₂)))
    · subst h1
      obtain rfl : request = r₂ := ServerPhase.readying.inj (hself.symm.trans hp₂)
      exact absurd hrc (hfresh (hS.readying v₁ sv₁ r₁ h₁ (hother h0 ▸ hp₁)))
    · exact hS.readyTwice v₁ v₂ sv₁ sv₂ r₁ r₂ h₁ h₂ (hother h0 ▸ hp₁) (hother h1 ▸ hp₂) hrc

/-- A task is spawned for the request that the server has. -/
theorem startJob (hS : s.Served) (hfresh : s.jobs s.jobCount = none) {v : ServerId} {sv : Server}
    {request : Request A}
    (hv : s.servers v = some sv) (hp : s.serverPhase v = .readying request) (hs' : s' = { s with
      serverPhase := Function.update s.serverPhase v .receiving
      jobs := Function.update s.jobs s.jobCount (some ⟨sv.localAddr, request⟩)
      jobCount := s.jobCount + 1
      jobPhase := Function.update s.jobPhase s.jobCount .computing }) (hL : s.Later s') : s'.Served := by
  have hservers : s'.servers = s.servers := by rw [hs']
  have hlog : s'.log = s.log := by rw [hs']
  have hready : ∀ {v' request'}, s'.serverPhase v' = .readying request' → v' ≠ v ∧
      s.serverPhase v' = .readying request' :=
    fun {v' request'} h => by
      subst hs'
      by_cases h0 : v' = v
      · subst h0
        simp at h
      · exact ⟨h0, by simpa [h0] using h⟩
  have hjob : ∀ {j job}, s'.jobs j = some job → j = s.jobCount ∧ job = ⟨sv.localAddr, request⟩ ∨
      s.jobs j = some job :=
    fun {j job} h => by
      subst hs'
      by_cases h0 : j = s.jobCount
      · subst h0
        exact Or.inl ⟨rfl, by simpa using h.symm⟩
      · exact Or.inr (by simpa [h0] using h)
  refine ⟨fun j result rc h => ?_, ?_, fun j job h => ?_, fun v' sv' request' h hp' => ?_,
    fun j j' job job' h h' hrc => ?_,
    fun v' sv' request' j job h hp' hj => ?_, fun v₁ v₂ sv₁ sv₂ r₁ r₂ h₁ h₂ hp₁ hp₂ hrc => ?_⟩
  · obtain ⟨h1, job, h2⟩ := hS.replied j result rc (hlog ▸ h)
    refine ⟨?_, job, h2.later hL⟩
    have hne : j ≠ s.jobCount := fun h0 => by
      have := h2.ofJob
      rw [h0, hfresh] at this
      cases this
    subst hs'
    simpa [hne] using h1
  · rw [hlog]
    exact hS.repliedOnce
  · rcases hjob h with ⟨-, rfl⟩ | h
    · exact (hS.readying v sv request hv hp).later hL
    · exact (hS.jobs j job h).later hL
  · exact (hS.readying v' sv' request' (hservers ▸ h) (hready hp').2).later hL
  · rcases hjob h with ⟨rfl, rfl⟩ | h <;> rcases hjob h' with ⟨rfl, rfl⟩ | h'
    · rfl
    · exact absurd hrc (hS.readyOnce v sv request j' job' hv hp h')
    · exact absurd hrc.symm (hS.readyOnce v sv request j job hv hp h)
    · exact hS.jobOnce j j' job job' h h' hrc
  · rw [hservers] at h
    obtain ⟨h0, hp'⟩ := hready hp'
    rcases hjob hj with ⟨-, rfl⟩ | hj
    · exact fun hrc => h0 (hS.readyTwice v' v sv' sv request' request h hv hp' hp hrc)
    · exact hS.readyOnce v' sv' request' j job h hp' hj
  · rw [hservers] at h₁ h₂
    exact hS.readyTwice v₁ v₂ sv₁ sv₂ r₁ r₂ h₁ h₂ (hready hp₁).2 (hready hp₂).2 hrc

/-- A task of a server sends its answer. -/
theorem reply (hS : s.Served) {j : JobId} {job : Job A} {result : Except E B} {phase : JobPhase} {rc : PacketRc}
    {net : Net (TowerPacket A B E)} (hp : s.jobPhase j = .computing) (hph : phase ≠ .computing)
    (hs' : s' = { s with
      net := net
      jobPhase := Function.update s.jobPhase j phase
      log := s.log ++ [.replied j result rc] }) (hL : s.Later s')
          (hnew : s'.Replied j result rc job) : s'.Served := by
  have hlog : ∀ {j' r rc'}, .replied j' r rc' ∈ s'.log → .replied j' r rc' ∈ s.log ∨ j' = j ∧ r = result ∧
      rc' = rc := fun h => by
    subst hs'
    rcases List.mem_append.mp h with h | h
    · exact Or.inl h
    · exact Or.inr (by simpa using h)
  have hfirst : ∀ {r rc'}, .replied j r rc' ∉ s.log := fun h => (hS.replied j _ _ h).1 hp
  have hphase : ∀ j', s'.jobPhase j' = .computing → j' ≠ j ∧ s.jobPhase j' = .computing := fun j' h => by
    subst hs'
    by_cases h0 : j' = j
    · subst h0
      exact absurd ((Function.update_self _ _ _).symm.trans h) hph
    · exact ⟨h0, by simpa [h0] using h⟩
  refine ⟨fun j' r rc' h => ?_, fun j' r₁ rc₁ r₂ rc₂ h₁ h₂ => ?_, fun j job h => ?_,
    fun v sv request h hp' => ?_, ?_, ?_, ?_⟩
  · rcases hlog h with h | ⟨rfl, rfl, rfl⟩
    · obtain ⟨h1, job', h2⟩ := hS.replied j' r rc' h
      exact ⟨fun h0 => h1 (hphase j' h0).2, job', h2.later hL⟩
    · exact ⟨fun h0 => (hphase j' h0).1 rfl, job, hnew⟩
  · rcases hlog h₁ with h₁ | ⟨rfl, rfl, rfl⟩ <;> rcases hlog h₂ with h₂ | ⟨h₂, rfl, rfl⟩
    · exact hS.repliedOnce j' r₁ rc₁ r₂ rc₂ h₁ h₂
    · exact absurd (h₂ ▸ h₁) hfirst
    · exact absurd h₂ hfirst
    · exact ⟨rfl, rfl⟩
  · refine (hS.jobs j job ?_).later hL
    rwa [hs'] at h
  · rw [hs'] at h hp'
    exact (hS.readying v sv request h hp').later hL
  · rw [hs']
    exact hS.jobOnce
  · rw [hs']
    exact hS.readyOnce
  · rw [hs']
    exact hS.readyTwice

end Served

/-! ## Clients -/

/-- `send_task` or `recv_task` has told the call of an error. -/
def Errored (s : TowerCx A B E) (id : Id) (k : CallId) (kind : ErrorKind) : Prop :=
  .failed id k kind ∈ s.log ∨ .cleared id k kind ∈ s.log

/-- The call `k` was told `r` because of what happened to its request. -/
inductive Given (s : TowerCx A B E) (k : CallId) : TowerResult B E → Prop
  | answered (result : Except E B) (rc : PacketRc) (h : .answered k result rc ∈ s.log) :
      Given s k (result.mapError .inl)
  | errored (id : Id) (kind : ErrorKind) (h : s.Errored id k kind) : Given s k (.error (.inr kind))

/-- What was passed on to `k` is the answer of a job to the request of `k`. -/
def Answers (s : TowerCx A B E) (k : CallId) (result : Except E B) (rc : PacketRc) : Prop :=
  0 < s.net.row rc .received ∧ ∃ rc₀ j job, .sent job.request.id k rc₀ ∈ s.log ∧ s.Replied j result rc job

/-- What the clients have done: a call is sent at most once, and is told at most once what happened to its
request. -/
structure Told (s : TowerCx A B E) : Prop where
  sent : ∀ id k rc, .sent id k rc ∈ s.log → id ≤ s.preNextGlobalId ∧ s.responder k ≠ .none ∧
    (∀ c, k ∉ s.messages c) ∧ ∃ call cl, s.Asked id k rc call cl
  sentId : ∀ id k rc k' rc', .sent id k rc ∈ s.log → .sent id k' rc' ∈ s.log → k = k' ∧ rc = rc'
  sentCall : ∀ id k rc id' rc', .sent id k rc ∈ s.log → .sent id' k rc' ∈ s.log → id = id'
  packets : ∀ rc w, s.net.packets rc = some w → (∃ id k, .sent id k rc ∈ s.log) ∨
    ∃ j result, .replied j result rc ∈ s.log
  entries : ∀ c p, p ∈ s.entries c → ∃ rc, .sent p.1 p.2 rc ∈ s.log
  given : ∀ k r, s.responder k = .sent r → s.Given k r
  answered : ∀ k result rc, .answered k result rc ∈ s.log → s.responder k = .sent (result.mapError .inl) ∧
    s.Answers k result rc
  answeredOnce : ∀ k result rc result' rc', .answered k result rc ∈ s.log → .answered k result' rc' ∈ s.log →
    rc = rc'
  errored : ∀ id k kind, s.Errored id k kind → s.responder k = .sent (.error (.inr kind)) ∧
    ∃ rc, .sent id k rc ∈ s.log

theorem Answers.later {k : CallId} {result : Except E B} {rc : PacketRc} (h : s.Answers k result rc)
    (hL : s.Later s') : s'.Answers k result rc := by
  obtain ⟨h1, rc₀, j, job, h2, h3⟩ := h
  exact ⟨hL.received _ h1, rc₀, j, job, hL.log h2, h3.later hL⟩

theorem Given.later {k : CallId} {r : TowerResult B E} (h : s.Given k r) (hL : s.Later s') : s'.Given k r := by
  cases h with
  | answered result rc h => exact .answered result rc (hL.log h)
  | errored id kind h => exact .errored id kind (h.imp (fun h => hL.log h) fun h => hL.log h)

/-- What an act can do with the call `k`. -/
inductive Fate (s s' : TowerCx A B E) (k : CallId) : Prop
  | same (h : s'.responder k = s.responder k)
  | unsent (h : ∀ id rc, .sent id k rc ∉ s'.log) (hr : ∀ r, s'.responder k ≠ .sent r)
  | canceled (h : s.responder k = .unsent) (hr : s'.responder k = .canceled)
  | told (r : TowerResult B E) (h : s.responder k = .unsent) (hr : s'.responder k = .sent r) (hg : s'.Given k r)

/-- What a new entry of the log can be. -/
inductive Entry (s s' : TowerCx A B E) : TowerObs B E → Prop
  | replied (j : JobId) (result : Except E B) (rc : PacketRc) : Entry s s' (.replied j result rc)
  | failed (id : Id) (k : CallId) (kind : ErrorKind) (hp : ∃ c, (id, k) ∈ s.entries c)
      (hr : s'.responder k = .sent (.error (.inr kind))) : Entry s s' (.failed id k kind)
  | cleared (id : Id) (k : CallId) (kind : ErrorKind) (hp : ∃ c, (id, k) ∈ s.entries c)
      (hr : s'.responder k = .sent (.error (.inr kind))) : Entry s s' (.cleared id k kind)
  | answered (k : CallId) (result : Except E B) (rc : PacketRc) (h : s.responder k = .unsent)
      (hr : s'.responder k = .sent (result.mapError .inl)) (ha : s'.Answers k result rc)
      (hone : ∀ result' rc', .answered k result' rc' ∈ s'.log → .answered k result' rc' ∈ s.log ∨ rc' = rc) :
      Entry s s' (.answered k result rc)

namespace Told

/-- **What an act preserves**, when no request is sent. -/
theorem step (hT : s.Told) (hL : s.Later s') (hpre : s.preNextGlobalId ≤ s'.preNextGlobalId)
    (hlog : ∀ o ∈ s'.log, o ∈ s.log ∨ Entry s s' o) (hfate : ∀ k, Fate s s' k)
    (hmessages : ∀ c k, k ∈ s'.messages c → k ∈ s.messages c ∨ ∀ id rc, .sent id k rc ∉ s'.log)
    (hentries : ∀ c p, p ∈ s'.entries c → p ∈ s.entries c)
    (hpackets : ∀ rc w, s'.net.packets rc = some w → s.net.packets rc = some w ∨
      ∃ j result, .replied j result rc ∈ s'.log) :
    s'.Told := by
  have hsent : ∀ {id k rc}, .sent id k rc ∈ s'.log → .sent id k rc ∈ s.log := fun h => by
    rcases hlog _ h with h | h
    · exact h
    · cases h
  -- what was told stays
  have hkeep : ∀ {k r}, s.responder k = .sent r → (∃ id rc, .sent id k rc ∈ s.log) → s'.responder k = .sent r := by
    rintro k r hr ⟨id, rc, hs⟩
    cases hfate k with
    | same h => exact h.trans hr
    | unsent h => exact absurd (hL.log hs) (h id rc)
    | canceled h => rw [hr] at h; cases h
    | told r h => rw [hr] at h; cases h
  refine ⟨fun id k rc h => ?_, fun id k rc k' rc' h h' => hT.sentId id k rc k' rc' (hsent h) (hsent h'),
    fun id k rc id' rc' h h' => hT.sentCall id k rc id' rc' (hsent h) (hsent h'), fun rc w h => ?_,
      fun c p hp => ?_,
    fun k r h => ?_, fun k result rc h => ?_, fun k result rc result' rc' h h' => ?_, fun id k kind h => ?_⟩
  · obtain ⟨h1, h2, h3, call, cl, h4⟩ := hT.sent id k rc (hsent h)
    refine ⟨h1.trans hpre, ?_, fun c hk => ?_, call, cl, h4.later hL⟩
    · cases hfate k with
      | same h => rw [h]; exact h2
      | unsent h0 => exact absurd h (h0 id rc)
      | canceled h hr => rw [hr]; simp
      | told r h hr => rw [hr]; simp
    · rcases hmessages c k hk with hk | hk
      · exact h3 c hk
      · exact hk id rc h
  · rcases hpackets rc w h with h | h
    · rcases hT.packets rc w h with ⟨id, k, h⟩ | ⟨j, result, h⟩
      · exact Or.inl ⟨id, k, hL.log h⟩
      · exact Or.inr ⟨j, result, hL.log h⟩
    · exact Or.inr h
  · obtain ⟨rc, h⟩ := hT.entries c p (hentries c p hp)
    exact ⟨rc, hL.log h⟩
  · cases hfate k with
    | same h0 => exact (hT.given k r (h0.symm.trans h)).later hL
    | unsent h0 hr => exact absurd h (hr r)
    | canceled h0 hr => rw [hr] at h; cases h
    | told r' h0 hr hg =>
      rw [hr] at h
      cases h
      exact hg
  · rcases hlog _ h with h | h
    · obtain ⟨h1, h2, rc₀, j, job, h3, h4⟩ := hT.answered k result rc h
      exact ⟨hkeep h1 ⟨_, _, h3⟩, Answers.later ⟨h2, rc₀, j, job, h3, h4⟩ hL⟩
    · cases h with
      | answered _ _ _ h hr ha => exact ⟨hr, ha⟩
  · have h'' := h'
    rcases hlog _ h with h | h <;> rcases hlog _ h' with h' | h'
    · exact hT.answeredOnce k result rc result' rc' h h'
    · cases h' with
      | answered _ _ _ h0 => rw [(hT.answered k result rc h).1] at h0; cases h0
    · cases h with
      | answered _ _ _ h0 => rw [(hT.answered k result' rc' h').1] at h0; cases h0
    · cases h with
      | answered _ _ _ h0 hr ha hone =>
        rcases hone _ _ h'' with h1 | h1
        · rw [(hT.answered k result' rc' h1).1] at h0; cases h0
        · exact h1.symm
  · have old : s.Errored id k kind → s'.responder k = .sent (.error (.inr kind)) ∧
      ∃ rc, .sent id k rc ∈ s'.log := fun h => by
      obtain ⟨h1, rc, h2⟩ := hT.errored id k kind h
      exact ⟨hkeep h1 ⟨id, rc, h2⟩, rc, hL.log h2⟩
    have new : ∀ {c}, (id, k) ∈ s.entries c → ∃ rc, .sent id k rc ∈ s'.log := fun hp => by
      obtain ⟨rc, h⟩ := hT.entries _ _ hp
      exact ⟨rc, hL.log h⟩
    rcases h with h | h
    · rcases hlog _ h with h | h
      · exact old (Or.inl h)
      · cases h with
        | failed _ _ kind hp hr => exact ⟨hr, new hp.choose_spec⟩
    · rcases hlog _ h with h | h
      · exact old (Or.inr h)
      · cases h with
        | cleared _ _ kind hp hr => exact ⟨hr, new hp.choose_spec⟩

/-- `send_task` sends the request of a call. -/
theorem send (hT : s.Told) (hO : s.Owned) {c : ClientId} {cl : Client} {k : CallId} {messages : List CallId}
    {call : Call A} {id : Id} (hc : s.clients c = some cl) (hs : s.sendTask c = .receiving)
    (hm : s.messages c = k :: messages)
    (hk : s.calls k = some call) (hid : s.preNextGlobalId < id) (hs' : s' = ({ s with
      net := (s.net.newPacket cl.localAddr cl.remote ⟨requestTy, .request (.start call.req id)⟩ .ofPacket).2
      preNextGlobalId := id
      messages := Function.update s.messages c messages
      sendTask := Function.update s.sendTask c
        (.sending id k) } : TowerCx A B E).note [.sent id k s.net.packetCount])
    (hL : s.Later s') : s'.Told := by
  have hin : k ∈ s.senders c := List.mem_append_left _ (by rw [hm]; exact List.mem_cons_self)
  obtain ⟨⟨call', hk', hcall⟩, hresponder⟩ := (hO.owned c k).mp hin
  obtain rfl : call' = call := Option.some.inj (hk'.symm.trans hk)
  have hfirst : ∀ {id rc}, .sent id k rc ∉ s.log :=
    fun h => (hT.sent _ k _ h).2.2.1 c (by rw [hm]; exact List.mem_cons_self)
  have hlog : s'.log = s.log ++ [.sent id k s.net.packetCount] := by rw [hs']; rfl
  have hsent : ∀ {id' k' rc}, .sent id' k' rc ∈ s'.log → .sent id' k' rc ∈ s.log ∨ id' = id ∧ k' = k ∧
      rc = s.net.packetCount :=
    fun h => by
      rw [hlog] at h
      rcases List.mem_append.mp h with h | h
      · exact Or.inl h
      · exact Or.inr (by simpa using h)
  have hrest : ∀ {o : TowerObs B E}, (∀ id k rc, o ≠ .sent id k rc) → o ∈ s'.log → o ∈ s.log := fun {o} ho h => by
    rw [hlog] at h
    rcases List.mem_append.mp h with h | h
    · exact h
    · exact absurd (List.mem_singleton.mp h) (ho _ _ _)
  have hresp : s'.responder = s.responder := by rw [hs']; rfl
  have hmessages : ∀ c' k', k' ∈ s'.messages c' → k' ∈ s.messages c' ∧ k' ≠ k := fun c' k' h => by
    subst hs'
    by_cases h0 : c' = c
    · subst h0
      have hnd := hO.nodup c'
      rw [senders, hm, List.cons_append] at hnd
      have hmem : k' ∈ messages := by simpa [note] using h
      refine ⟨by rw [hm]; exact List.mem_cons_of_mem _ hmem, ?_⟩
      rintro rfl
      exact (List.nodup_cons.mp hnd).1 (List.mem_append_left _ hmem)
    · have hmem : k' ∈ s.messages c' := by simpa [note, h0] using h
      refine ⟨hmem, ?_⟩
      rintro rfl
      obtain ⟨call', h1, h2⟩ := ((hO.owned c' k').mp (List.mem_append_left _ hmem)).1
      rw [hk] at h1
      cases h1
      exact h0 (h2.symm.trans hcall)
  have hentries : ∀ c' p, p ∈ s'.entries c' → p ∈ s.entries c' ∨ p = (id, k) := fun c' p h => by
    subst hs'
    by_cases h0 : c' = c
    · subst h0
      simp only [TowerCx.entries, note, Function.update_self, SendTask.entries, List.singleton_append,
        List.mem_cons] at h
      rcases h with h | h
      · exact Or.inr h
      · exact Or.inl (List.mem_append_right _ h)
    · exact Or.inl (by simpa [TowerCx.entries, note, h0] using h)
  have hpre : s'.preNextGlobalId = id := by rw [hs']; rfl
  have hnew : .sent id k s.net.packetCount ∈ s'.log := by rw [hlog]; simp
  have hpackets : s'.net.packets = Function.update s.net.packets s.net.packetCount
      (some (.new cl.localAddr cl.remote ⟨requestTy, .request (.start call'.req id)⟩ .ofPacket)) := by
    rw [hs']
    rfl
  have hask : s'.Asked id k s.net.packetCount call' cl := by
    refine ⟨hnew, hL.calls _ _ hk, hL.clients _ _ (by rw [hcall, hc]), ?_⟩
    rw [hpackets]
    exact Function.update_self _ _ _
  refine ⟨fun id' k' rc h => ?_, fun id' k₁ rc₁ k₂ rc₂ h₁ h₂ => ?_, fun id₁ k' rc₁ id₂ rc₂ h₁ h₂ => ?_,
    fun rc w h => ?_,
    fun c' p hp => ?_, fun k' r h => ?_, fun k' result rc h => ?_, fun k' r rc r' rc' h h' => ?_,
      fun id' k' kind h => ?_⟩
  · rw [hpre, hresp]
    rcases hsent h with h | ⟨rfl, rfl, rfl⟩
    · obtain ⟨h1, h2, h3, call, cl, h4⟩ := hT.sent id' k' rc h
      exact ⟨h1.trans hid.le, h2, fun c' hk => h3 c' (hmessages c' k' hk).1, call, cl, h4.later hL⟩
    · exact ⟨le_rfl, by rw [hresponder]; simp, fun c' hk => (hmessages c' k' hk).2 rfl, call', cl, hask⟩
  · rcases hsent h₁ with h₁ | ⟨rfl, rfl, rfl⟩ <;> rcases hsent h₂ with h₂ | ⟨he, rfl, rfl⟩
    · exact hT.sentId id' k₁ rc₁ k₂ rc₂ h₁ h₂
    · exact absurd (hT.sent id' k₁ rc₁ h₁).1 (he ▸ Nat.not_le_of_lt hid)
    · exact absurd (hT.sent id' k₂ rc₂ h₂).1 (Nat.not_le_of_lt hid)
    · exact ⟨rfl, rfl⟩
  · rcases hsent h₁ with h₁ | ⟨rfl, rfl, rfl⟩ <;> rcases hsent h₂ with h₂ | ⟨rfl, he, rfl⟩
    · exact hT.sentCall id₁ k' rc₁ id₂ rc₂ h₁ h₂
    · exact absurd (he ▸ h₁) hfirst
    · exact absurd h₂ hfirst
    · rfl
  · rw [hpackets] at h
    by_cases h0 : rc = s.net.packetCount
    · exact Or.inl ⟨id, k, h0 ▸ hnew⟩
    · rcases hT.packets rc w (by simpa [h0] using h) with ⟨id, k, h⟩ | ⟨j, r, h⟩
      · exact Or.inl ⟨id, k, hL.log h⟩
      · exact Or.inr ⟨j, r, hL.log h⟩
  · rcases hentries c' p hp with hp | rfl
    · obtain ⟨rc, h⟩ := hT.entries c' p hp
      exact ⟨rc, hL.log h⟩
    · exact ⟨_, hnew⟩
  · exact (hT.given k' r (hresp ▸ h)).later hL
  · obtain ⟨h1, h2⟩ := hT.answered k' result rc (hrest (by simp) h)
    exact ⟨hresp ▸ h1, h2.later hL⟩
  · exact hT.answeredOnce k' r rc r' rc' (hrest (by simp) h) (hrest (by simp) h')
  · obtain ⟨h1, rc, h2⟩ := hT.errored id' k' kind (h.imp (hrest (by simp)) (hrest (by simp)))
    exact ⟨hresp ▸ h1, rc, hL.log h2⟩

end Told

/-! ## Runs -/

/-- **The invariant** of clients and servers. -/
structure Rpc (s : TowerCx A B E) : Prop where
  wired : s.Wired
  owned : s.Owned
  hung : s.Hung
  told : s.Told
  served : s.Served

namespace Rpc

/-- A packet with a request in it is that of a call. -/
theorem request (hR : s.Rpc) {rc : PacketRc} {w : WrappedPacket (TowerPacket A B E)} {req : A} {id : Id}
    (hw : s.net.packets rc = some w) (hv : w.packet.value = .request (.start req id)) :
    ∃ k call cl, s.Asked id k rc call cl ∧ req = call.req ∧ w.header.src = cl.localAddr ∧
    w.header.dst = cl.remote := by
  rcases hR.told.packets rc w hw with ⟨id', k, h⟩ | ⟨j, result, h⟩
  · obtain ⟨-, -, -, call, cl, ha⟩ := hR.told.sent id' k rc h
    obtain rfl := Option.some.inj (ha.packet.symm.trans hw)
    obtain ⟨rfl, rfl⟩ := TowerRequest.start.inj (TowerPacket.request.inj hv)
    exact ⟨k, call, cl, ha, rfl, rfl, rfl⟩
  · obtain ⟨-, job, hr⟩ := hR.served.replied j result rc h
    obtain rfl := Option.some.inj (hr.packet.symm.trans hw)
    cases hv

/-- A packet with a response in it is that of a job. -/
theorem response (hR : s.Rpc) {rc : PacketRc} {w : WrappedPacket (TowerPacket A B E)} {result : Except E B}
    {id : Id} (hw : s.net.packets rc = some w) (hv : w.packet.value = .response (.complete result id)) :
    ∃ j job, s.Replied j result rc job ∧ id = job.request.id ∧ w.header.src = job.localAddr ∧
    w.header.dst = job.request.address := by
  rcases hR.told.packets rc w hw with ⟨id', k, h⟩ | ⟨j, result', h⟩
  · obtain ⟨-, -, -, call, cl, ha⟩ := hR.told.sent id' k rc h
    obtain rfl := Option.some.inj (ha.packet.symm.trans hw)
    cases hv
  · obtain ⟨-, job, hr⟩ := hR.served.replied j result' rc h
    obtain rfl := Option.some.inj (hr.packet.symm.trans hw)
    obtain ⟨rfl, rfl⟩ := TowerResponse.complete.inj (TowerPacket.response.inj hv)
    exact ⟨j, job, hr, rfl, rfl, rfl⟩

theorem served_act (hR : s.Rpc) (h : Act s s') (hL : s.Later s') : s'.Served := by
  have hS := hR.served
  cases h with
  | runServer node port r net h =>
    refine hS.later hL (fun _ _ _ h => h) rfl (fun _ h => h) fun v sv request hv hp => ?_
    have h0 : v ≠ s.serverCount := by
      rintro rfl
      simp at hp
    exact ⟨by simpa [h0] using hv, by simpa [h0] using hp⟩
  | addrInUse =>
    refine hS.later hL (fun _ _ _ h => h) rfl (fun _ h => h) fun v sv request hv hp => ?_
    have h0 : v ≠ s.serverCount := by
      rintro rfl
      simp at hp
    exact ⟨hv, by simpa [h0] using hp⟩
  | serverEnds v sv phase s' hv hp hph h =>
    obtain ⟨net, hnet, h⟩ := inNet_bind.mp h
    cases h
    refine hS.later hL (fun _ _ _ h => h) rfl (fun _ h => h) fun v' sv' request hv' hp' => ?_
    have h0 : v' ≠ v := by
      rintro rfl
      rw [show phase = .readying request by simpa using hp'] at hph
      rcases hph with h | ⟨e, h⟩ <;> cases h
    exact ⟨hv', by simpa [h0] using hp'⟩
  | serverGets v sv rc w req id msgs net hv hp hm h hw hval =>
    obtain ⟨ha, hwire⟩ := hR.wired.server_receive hv (Or.inl hp) h
    have hw' : s.net.packets rc = some w := (congrFun (congrArg Net.Wiring.packets hwire) rc).symm.trans hw
    obtain ⟨⟨w', hw'', hkey⟩, hnew, hgot⟩ :=
      hR.wired.gets (hR.wired.serverSocket v sv hv (Or.inl hp)) (hR.wired.serverMade v sv hv) hm h
    obtain rfl : w = w' := Option.some.inj (hw'.symm.trans hw'')
    obtain ⟨k, call, cl, hask, rfl, hsrc, hdst⟩ := hR.request hw' hval
    have haddr : sv.localAddr = cl.remote := (congrArg Prod.fst hkey).trans hdst
    exact hS.gets hv hnew rfl hL ⟨k, call, cl, hask.later hL, rfl, hsrc, haddr, hgot⟩
  | startJob v sv request hv hp => exact hS.startJob (hR.wired.jobLt _ le_rfl) hv hp rfl hL
  | reply j job result phase hj hp hph =>
    refine hS.reply hp hph rfl hL ⟨List.mem_append_right _ List.mem_cons_self, hj, ?_⟩
    exact Function.update_self _ _ _
  | jobDone j =>
    refine hS.later hL (fun _ _ _ h => h) rfl (fun j' h => ?_) fun _ _ _ hv hp => ⟨hv, hp⟩
    by_cases h0 : j' = j
    · subst h0
      simp at h
    · simpa [h0] using h
  | dropSend c =>
    rw [dropSend_eq] at hL ⊢
    exact hS.later hL (fun _ _ _ h => h) rfl (fun _ h => h) fun _ _ _ hv hp => ⟨hv, hp⟩
  | dropRecv c s' hr h =>
    obtain ⟨cl, net, hc, hnet, rfl⟩ := dropRecv_ok h
    split at hL <;> rename_i ho
    · rw [if_pos ho]
      exact hS.later hL (fun _ _ _ h => h) rfl (fun _ h => h) fun _ _ _ hv hp => ⟨hv, hp⟩
    · rw [if_neg ho]
      exact hS.later hL (fun _ _ _ h => h) rfl (fun _ h => h) fun _ _ _ hv hp => ⟨hv, hp⟩
  | send c cl k messages call id hc hs hm hk hid =>
    exact hS.later hL (fun _ _ _ h => (List.mem_append.mp h).resolve_right (by simp)) rfl (fun _ h => h)
      fun _ _ _ hv hp => ⟨hv, hp⟩
  | fail c id k kind hs =>
    exact hS.later hL (fun _ _ _ h => (List.mem_append.mp h).resolve_right (by simp)) rfl (fun _ h => h)
      fun _ _ _ hv hp => ⟨hv, hp⟩
  | clear c cl kind net hc hr h =>
    exact hS.later hL (fun _ _ _ h => (List.mem_append.mp h).resolve_right (by simp)) rfl (fun _ h => h)
      fun _ _ _ hv hp => ⟨hv, hp⟩
  | answer c cl rc w result id k msgs net hc hr hm h hw hv hk =>
    exact hS.later hL (fun _ _ _ h => (List.mem_append.mp h).resolve_right (by simp)) rfl (fun _ h => h)
      fun _ _ _ hv hp => ⟨hv, hp⟩
  | _ => exact hS.later hL (fun _ _ _ h => h) rfl (fun _ h => h) fun _ _ _ hv hp => ⟨hv, hp⟩

/-- The `Sender`s of some calls are dropped. -/
theorem told_dropped (hR : s.Rpc) (hL : s.Later s') (ks : List CallId) (hks : ∀ k ∈ ks, s.responder k = .unsent)
    (hresponder : ∀ k, s'.responder k = if k ∈ ks then (s.responder k).cancel else s.responder k)
    (hmessages : ∀ c k, k ∈ s'.messages c → k ∈ s.messages c)
    (hentries : ∀ c, (s'.entries c).Sublist (s.entries c))
    (hlog : s'.log = s.log) (hpre : s'.preNextGlobalId = s.preNextGlobalId)
    (hpackets : s'.net.packets = s.net.packets) : s'.Told := by
  refine hR.told.step hL hpre.ge (fun o h => Or.inl (hlog ▸ h)) (fun k => ?_)
    (fun c k h => Or.inl (hmessages c k h))
    (fun c p hp => (hentries c).subset hp) fun rc w h => Or.inl (hpackets ▸ h)
  by_cases hk : k ∈ ks
  · exact .canceled (hks k hk) (by rw [hresponder k, if_pos hk, hks k hk]; rfl)
  · exact .same (by rw [hresponder k, if_neg hk])

theorem responder_sent {ks : List CallId} {k : CallId} {r : TowerResult B E} (hm : k ∈ ks)
    (hk : s.responder k = .unsent) : (s.onResponders ks (.send r)).responder k = .sent r := by
  unfold onResponders
  dsimp only
  rw [if_pos hm, hk]
  rfl

/-- Something is sent through the `Sender`s of some calls. -/
theorem told_sent (hR : s.Rpc) (hL : s.Later s') {r : TowerResult B E} {os : List (TowerObs B E)}
    (ks : List CallId) (hks : ∀ k ∈ ks, s.responder k = .unsent ∧ s'.Given k r)
    (hresponder : ∀ k, s'.responder k = if k ∈ ks then (s.responder k).send r else s.responder k)
    (hlog : s'.log = s.log ++ os) (hos : ∀ o ∈ os, Entry s s' o) (hmessages : s'.messages = s.messages)
    (hentries : ∀ c, (s'.entries c).Sublist (s.entries c)) (hpre : s'.preNextGlobalId = s.preNextGlobalId)
    (hpackets : s'.net.packets = s.net.packets) : s'.Told := by
  refine hR.told.step hL hpre.ge (fun o h => ?_) (fun k => ?_) (fun c k h => Or.inl (hmessages ▸ h))
    (fun c p hp => (hentries c).subset hp) fun rc w h => Or.inl (hpackets ▸ h)
  · rw [hlog] at h
    exact (List.mem_append.mp h).imp_right (hos o)
  · by_cases hk : k ∈ ks
    · obtain ⟨h, hg⟩ := hks k hk
      exact .told r h (by rw [hresponder k, if_pos hk, h]; rfl) hg
    · exact .same (by rw [hresponder k, if_neg hk])

theorem told_act (hR : s.Rpc) (h : Act s s') (hL : s.Later s') : s'.Told := by
  have hT := hR.told
  have hunsent : ∀ {c k}, k ∈ s.senders c → s.responder k = .unsent := fun hk => ((hR.owned.owned _ _).mp hk).2
  have keep : s'.log = s.log → s'.responder = s.responder → s'.messages = s.messages → s'.entries = s.entries →
      s.preNextGlobalId ≤ s'.preNextGlobalId → s'.net.packets = s.net.packets → s'.Told := fun h1 h2 h3 h4 h5 h6 =>
    hT.step hL h5 (fun o h => Or.inl (h1 ▸ h)) (fun k => .same (congrFun h2 k)) (fun c k h => Or.inl (h3 ▸ h))
      (fun c p h => h4 ▸ h) fun rc w h => Or.inl (h6 ▸ h)
  cases h with
  | newId id h =>
    obtain ⟨rfl, -⟩ := newId_ok h hR.wired.pre
    exact keep rfl rfl rfl rfl (Nat.le_succ _) rfl
  | newClient node remote id r net hid h =>
    obtain ⟨rfl, -⟩ := newId_ok hid hR.wired.pre
    obtain ⟨-, -, hw⟩ := Net.openSocket_ok h
    have hnew := List.append_eq_nil_iff.mp (hR.owned.senders_fresh (le_refl s.clientCount))
    refine hT.step hL (Nat.le_succ _) (fun o h => Or.inl h) (fun k => .same rfl) (fun c k h => Or.inl ?_)
      (fun c p h => ?_) fun rc w h => Or.inl ((congrFun (congrArg Net.Wiring.packets hw) rc).symm.trans h)
    · by_cases h0 : c = s.clientCount
      · subst h0
        simp at h
      · simpa [h0] using h
    · by_cases h0 : c = s.clientCount
      · subst h0
        simp [entries, SendTask.entries] at h
      · simpa [entries, h0] using h
  | call c req hl =>
    refine hT.step hL le_rfl (fun o h => Or.inl h) (fun k => ?_) (fun c k h => Or.inl h)
      (fun c p h => h) fun rc w h => Or.inl h
    by_cases h0 : k = s.callCount
    · subst h0
      refine .unsent (fun id rc h => ?_) fun r => by simp
      obtain ⟨-, -, -, call, cl, ha⟩ := hT.sent id _ rc h
      have := ha.ofCall
      rw [hR.owned.callLt _ le_rfl] at this
      cases this
    · exact .same (Function.update_of_ne h0 _ _)
  | queue k call hk hp ho =>
    have hnot : ∀ id rc, .sent id k rc ∉ s.log := fun id rc h => (hT.sent id k rc h).2.1 (hR.owned.created k hp)
    refine hT.step hL le_rfl (fun o h => Or.inl h) (fun k' => ?_) (fun c k' h => ?_)
      (fun c p h => h) fun rc w h => Or.inl h
    · by_cases h0 : k' = k
      · subst h0
        exact .unsent hnot fun r => by simp
      · exact .same (Function.update_of_ne h0 _ _)
    · by_cases h0 : c = call.client
      · subst h0
        simp only [Function.update_self, List.mem_append, List.mem_singleton] at h
        rcases h with h | rfl
        · exact Or.inl h
        · exact Or.inr hnot
      · exact Or.inl (by simpa [h0] using h)
  | dropSend c =>
    have hmessages : ∀ c' k, k ∈ Function.update s.messages c [] c' → k ∈ s.messages c' := fun c' k h => by
      by_cases h0 : c' = c
      · subst h0
        simp at h
      · simpa [h0] using h
    have hentries := entries_dropSend (s := s) c
    rw [dropSend_eq] at hL hentries ⊢
    exact hR.told_dropped hL (s.cutOff c) (fun k hk => hunsent (cutOff_sublist.subset hk)) (fun k => rfl) hmessages
      hentries rfl rfl rfl
  | dropRecv c s' hr h =>
    obtain ⟨cl, net, hc, hnet, rfl⟩ := dropRecv_ok h
    have hpackets : net.packets = s.net.packets := congrArg Net.Wiring.packets (Net.dropSocket_ok hnet)
    split at hL <;> rename_i ho
    · rw [if_pos ho]
      exact hT.step hL le_rfl (fun o h => Or.inl h) (fun k => .same rfl) (fun c k h => Or.inl h) (fun c p h => h)
        fun rc w h => Or.inl (hpackets ▸ h)
    · rw [if_neg ho]
      refine hR.told_dropped hL _ (fun k hk => ?_) (fun k => rfl) (fun c' k h => h)
        (entries_takeOut (List.nil_sublist _) rfl rfl) rfl rfl hpackets
      obtain ⟨p, hp, rfl⟩ := List.mem_map.mp hk
      exact hunsent (List.mem_append_right _ (List.mem_map_of_mem (List.mem_append_right _ hp)))
  | send c cl k messages call id hc hs hm hk hid =>
    obtain ⟨rfl, -⟩ := newId_ok hid hR.wired.pre
    exact hT.send hR.owned hc hs hm hk (Nat.lt_succ_self _) rfl hL
  | register c id k hs =>
    refine hT.step hL le_rfl (fun o h => Or.inl h) (fun k => .same rfl) (fun c k h => Or.inl h)
      (fun c' p h => ?_) fun rc w h => Or.inl h
    by_cases h0 : c' = c
    · subst h0
      simpa [entries, SendTask.entries, hs] using h
    · simpa [entries, h0] using h
  | fail c id k kind hs =>
    have hin : (id, k) ∈ s.entries c := by simp [entries, hs, SendTask.entries]
    have hk := hunsent (List.mem_append_right _ (List.mem_map_of_mem (f := Prod.snd) hin))
    refine hR.told_sent hL (r := .error (.inr kind)) [k] (fun k' hk' => ?_) (fun k => rfl) rfl (fun o h => ?_) rfl
      (entries_receiving rfl rfl) rfl rfl
    · rw [List.mem_singleton.mp hk']
      exact ⟨hk, .errored id kind (Or.inl (List.mem_append_right _ List.mem_cons_self))⟩
    · rw [List.mem_singleton.mp h]
      exact .failed id k kind ⟨c, hin⟩ (responder_sent List.mem_cons_self hk)
  | clear c cl kind net hc hr h =>
    obtain ⟨-, hw⟩ := hR.wired.client_receive hc hr h
    have hin : ∀ p ∈ s.responders c, p ∈ s.entries c := fun p hp => List.mem_append_right _ hp
    have hk : ∀ p ∈ s.responders c, s.responder p.2 = .unsent := fun p hp =>
      hunsent (List.mem_append_right _ (List.mem_map_of_mem (hin p hp)))
    refine hR.told_sent hL (r := .error (.inr kind)) _ (fun k hm => ?_) (fun k => rfl) rfl (fun o h => ?_) rfl
      (entries_takeOut (List.nil_sublist _) rfl rfl) rfl (congrArg Net.Wiring.packets hw)
    · obtain ⟨p, hp, rfl⟩ := List.mem_map.mp hm
      exact ⟨hk p hp, .errored p.1 kind (Or.inr (List.mem_append_right _ (List.mem_map.mpr ⟨p, hp, rfl⟩)))⟩
    · obtain ⟨p, hp, rfl⟩ := List.mem_map.mp h
      exact .cleared p.1 p.2 kind ⟨c, hin p hp⟩ (responder_sent (List.mem_map_of_mem hp) (hk p hp))
  | answer c cl rc w result id k msgs net hc hr hm h hw hv hk =>
    obtain ⟨-, hwire⟩ := hR.wired.client_receive hc hr h
    have hpackets : net.packets = s.net.packets := congrArg Net.Wiring.packets hwire
    obtain ⟨-, -, hgot⟩ := hR.wired.gets (hR.wired.clientSocket c cl hc hr) (hR.wired.clientMade c cl hc) hm h
    obtain ⟨j, job, hrep, rfl, -, -⟩ := hR.response (hpackets ▸ hw) hv
    obtain ⟨l₁, l₂, hl, -⟩ := hR.owned.lookup hk
    have hin : (job.request.id, k) ∈ s.entries c := List.mem_append_right _ (by rw [hl]; simp)
    have hunk := hunsent (List.mem_append_right _ (List.mem_map_of_mem (f := Prod.snd) hin))
    obtain ⟨rc₀, hask⟩ := hT.entries c _ hin
    refine hR.told_sent hL (r := result.mapError .inl) [k] (fun k' hk' => ?_)
      (fun k => rfl) rfl (fun o h => ?_) rfl
      (entries_takeOut List.filter_sublist rfl rfl) rfl hpackets
    · rw [List.mem_singleton.mp hk']
      exact ⟨hunk, .answered result rc (List.mem_append_right _ List.mem_cons_self)⟩
    · rw [List.mem_singleton.mp h]
      refine .answered k result rc hunk (responder_sent List.mem_cons_self hunk)
        ⟨hgot, rc₀, j, job, hL.log hask, hrep.later hL⟩ fun r' rc' h => ?_
      rcases List.mem_append.mp h with h | h
      · exact Or.inl h
      · have he : r' = result ∧ rc' = rc := by simpa using List.mem_singleton.mp h
        exact Or.inr he.2
  | reply j job result phase hj hp hph =>
    refine hT.step hL le_rfl (fun o h => ?_) (fun k => .same rfl) (fun c k h => Or.inl h)
      (fun c p h => h) fun rc w h => ?_
    · rcases List.mem_append.mp h with h | h
      · exact Or.inl h
      · rw [List.mem_singleton.mp h]
        exact Or.inr (.replied j result _)
    · by_cases h0 : rc = s.net.packetCount
      · exact Or.inr ⟨j, result, h0 ▸ List.mem_append_right _ List.mem_cons_self⟩
      · exact Or.inl ((Function.update_of_ne h0 _ _).symm.trans h)
  | runServer node port r net h =>
    exact keep rfl rfl rfl rfl le_rfl (congrArg Net.Wiring.packets (Net.openSocket_ok h).2.2)
  | serverError v sv net hv hp h =>
    exact keep rfl rfl rfl rfl le_rfl (congrArg Net.Wiring.packets (hR.wired.server_receive hv (Or.inl hp) h).2)
  | serverEnds v sv phase s' hv hp hph h =>
    obtain ⟨net, hnet, h⟩ := inNet_bind.mp h
    cases h
    exact keep rfl rfl rfl rfl le_rfl (congrArg Net.Wiring.packets (Net.dropSocket_ok hnet))
  | serverGets v sv rc w req id msgs net hv hp hm h hw hval =>
    exact keep rfl rfl rfl rfl le_rfl (congrArg Net.Wiring.packets (hR.wired.server_receive hv (Or.inl hp) h).2)
  | net e net h => exact keep rfl rfl rfl rfl le_rfl (congrArg Net.Wiring.packets (netEvent_act h).2)
  | _ => exact keep rfl rfl rfl rfl le_rfl rfl

theorem act (hR : s.Rpc) (h : Act s s') : s'.Rpc :=
  have hL := h.later hR.wired hR.owned
  ⟨hR.wired.act h, hR.owned.act hR.wired.pre h, hR.hung.act h, hR.told_act h hL, hR.served_act h hL⟩

end Rpc

theorem rpc_install : (install : TowerCx A B E).Rpc where
  wired := wired_install
  owned := owned_install
  hung := hung_install
  told :=
    { sent := fun _ _ _ h => by cases h
      sentId := fun _ _ _ _ _ h => by cases h
      sentCall := fun _ _ _ _ _ h => by cases h
      packets := fun _ _ h => by cases h
      entries := fun _ _ h => by cases h
      given := fun _ _ h => by cases h
      answered := fun _ _ _ h => by cases h
      answeredOnce := fun _ _ _ _ _ h => by cases h
      errored := fun _ _ _ h => by rcases h with h | h <;> cases h }
  served :=
    { replied := fun _ _ _ h => by cases h
      repliedOnce := fun _ _ _ _ _ h => by cases h
      jobs := fun _ _ h => by cases h
      readying := fun _ _ _ h => by cases h
      jobOnce := fun _ _ _ _ h => by cases h
      readyOnce := fun _ _ _ _ _ h => by cases h
      readyTwice := fun _ _ _ _ _ _ h => by cases h }

theorem Rpc.acts (hR : s.Rpc) (h : Acts s s') : s'.Rpc := by
  induction h with
  | refl => exact hR
  | tail _ h ih => exact ih.act h

theorem Reachable.rpc (hr : Reachable s) : s.Rpc := rpc_install.acts hr.acts

/-! ## Answers -/

/-- A service gets the request of a call at most once. -/
theorem Rpc.job_unique (hR : s.Rpc) {j j' : JobId} {job job' : Job A} (hj : s.jobs j = some job)
    (hj' : s.jobs j' = some job') (hid : job.request.id = job'.request.id) : j = j' := by
  obtain ⟨k, call, cl, h, -⟩ := hR.served.jobs j job hj
  obtain ⟨k', call', cl', h', -⟩ := hR.served.jobs j' job' hj'
  exact hR.served.jobOnce j j' job job' hj hj' (hR.told.sentId _ _ _ _ _ h.sent (hid ▸ h'.sent)).2

/-- What was passed on to a call, all the way to the server and back. -/
theorem Rpc.answered (hR : s.Rpc) {k : CallId} {call : Call A} {result : Except E B} {rc : PacketRc}
    (hk : s.calls k = some call)
    (h : .answered k result rc ∈ s.log) : ∃ cl id rc₀ j, s.Asked id k rc₀ call cl ∧
      s.jobs j = some ⟨cl.remote, ⟨rc₀, call.req, id, cl.localAddr⟩⟩ ∧ .replied j result rc ∈ s.log := by
  obtain ⟨-, -, rc₀, j, job, hsent, hrep⟩ := hR.told.answered k result rc h
  obtain ⟨-, -, -, call', cl, hask⟩ := hR.told.sent _ k rc₀ hsent
  obtain rfl : call' = call := Option.some.inj (hask.ofCall.symm.trans hk)
  obtain ⟨k', call'', cl', hask', hreq, haddr, hlocal, -⟩ := hR.served.jobs j job hrep.ofJob
  obtain ⟨rfl, hrc⟩ := hR.told.sentId _ _ _ _ _ hsent hask'.sent
  obtain rfl : call'' = call' := Option.some.inj (hask'.ofCall.symm.trans hk)
  obtain rfl : cl' = cl := Option.some.inj (hask'.ofClient.symm.trans hask.ofClient)
  refine ⟨cl', job.request.id, rc₀, j, hask, ?_, hrep.replied⟩
  obtain ⟨local₀, ⟨rc₁, req, id, address⟩⟩ := job
  obtain rfl : rc₀ = rc₁ := hrc
  obtain rfl : req = call''.req := hreq
  obtain rfl : address = cl'.localAddr := haddr
  obtain rfl : local₀ = cl'.remote := hlocal
  exact hrep.ofJob

/-- `r` is what a service has answered to the request of the call `k`: in the only task that was spawned for
this request, on a server at the remote address of the client. -/
def OwnAnswer (s : TowerCx A B E) (k : CallId) (call : Call A) (r : TowerResult B E) : Prop :=
  ∃ result rc cl id rc₀ j, r = result.mapError .inl ∧ .answered k result rc ∈ s.log ∧ s.Asked id k rc₀ call cl ∧
    s.jobs j = some ⟨cl.remote, ⟨rc₀, call.req, id, cl.localAddr⟩⟩ ∧ .replied j result rc ∈ s.log ∧
    ∀ j' job, s.jobs j' = some job → job.request.id = id → j' = j

/-- **Every call gets its own answer.**  When the future of `Client::call` returns something that a service
has answered, then that is the answer to the request of this very call; otherwise it returns the error of its
own `net.send` or of the client's socket, or `ConnectionReset`. -/
theorem call_gets_its_answer (hr : Reachable s) {k : CallId} {call : Call A} {r : TowerResult B E}
    (hk : s.calls k = some call) (hp : s.phase k = .returned r) :
    s.OwnAnswer k call r ∨ (∃ id kind, r = .error (.inr kind) ∧ s.Errored id k kind) ∨ r = connectionReset := by
  have hR := hr.rpc
  rcases hR.owned.returned k r hp with rfl | hs
  · exact Or.inr (Or.inr rfl)
  · cases hR.told.given k r hs with
    | errored id kind h => exact Or.inr (Or.inl ⟨id, kind, rfl, h⟩)
    | answered result rc h =>
      obtain ⟨cl, id, rc₀, j, hask, hj, hrep⟩ := hR.answered hk h
      exact Or.inl ⟨result, rc, cl, id, rc₀, j, rfl, h, hask, hj, hrep,
        fun j' job hj' hid => hR.job_unique hj' hj hid⟩

/-- Two calls of a client; the net delivers the later request first, and the later answer too. -/
def crossedRun : List (TowerLabel ℕ ℕ ℕ) :=
  [.runServer 2 7, .newClient 1 ⟨2, 7⟩, .call 0 5, .call 0 8, .pollCall 0, .pollCall 1, .pollTask (.send 0),
    .pollSend 0 (.ready (.ok ())), .pollSend 0 (.ready (.ok ())), .endPoll,
    .net (.enqueuePacket 90 SimCx.fiveSeconds 0), .net (.enqueuePacket 91 SimCx.fiveSeconds 1),
    .net (.deliver 91 SimCx.fiveSeconds), .net (.deliver 90 SimCx.fiveSeconds), .pollServer 0,
    .serviceReady 0 (.ok ()), .pollServer 0, .serviceReady 0 (.ok ()), .complete 1 (.ok 6) (.ready (.ok ())),
    .complete 0 (.ok 9) (.ready (.ok ())), .net (.enqueuePacket 92 SimCx.fiveSeconds 2),
    .net (.enqueuePacket 93 SimCx.fiveSeconds 3), .net (.deliver 93 SimCx.fiveSeconds),
    .net (.deliver 92 SimCx.fiveSeconds), .pollTask (.recv 0), .pollRecv 0, .pollRecv 0, .endPoll,
    .pollCall 0, .pollCall 1]

theorem call_gets_its_answer_crossed : ∃ s : TowerCx ℕ ℕ ℕ, Machine.run step install crossedRun = .ok s ∧
    s.phase 0 = .returned (.ok 6) ∧ s.OwnAnswer 0 ⟨0, 5⟩ (.ok 6) := by
  obtain ⟨s, hs, hq⟩ : ∃ s : TowerCx ℕ ℕ ℕ, Machine.run step install crossedRun = .ok s ∧
      (s.calls 0, s.phase 0) = (some ⟨0, 5⟩, .returned (.ok 6)) := Machine.exists_of_run (by decide +kernel)
  simp only [Prod.mk.injEq] at hq
  exact ⟨s, hs, hq.2, (call_gets_its_answer ⟨_, hs⟩ hq.1 hq.2).resolve_right (by simp [connectionReset])⟩

/-- **At most once.**  What a service is given is the request of a call, unchanged, on a server at the remote
address of the call's client; over all servers and tasks a call is served once at most, and a task sends one
answer at most. -/
theorem served_at_most_once (hr : Reachable s) :
    (∀ j job, s.jobs j = some job → ∃ k call cl rc id, s.Asked id k rc call cl ∧
      job = ⟨cl.remote, ⟨rc, call.req, id, cl.localAddr⟩⟩) ∧
    (∀ j j' job job' k rc rc', s.jobs j = some job → s.jobs j' = some job' → .sent job.request.id k rc ∈ s.log →
      .sent job'.request.id k rc' ∈ s.log → j = j') ∧
    ∀ j result rc result' rc', .replied j result rc ∈ s.log → .replied j result' rc' ∈ s.log →
    result = result' ∧ rc = rc' := by
  have hR := hr.rpc
  refine ⟨fun j job hj => ?_, fun j j' job job' k rc rc' hj hj' hs hs' => ?_, hR.served.repliedOnce⟩
  · obtain ⟨k, call, cl, hask, hreq, haddr, hlocal, -⟩ := hR.served.jobs j job hj
    refine ⟨k, call, cl, job.request.rc, job.request.id, hask, ?_⟩
    rw [← hreq, ← haddr, ← hlocal]
  · exact hR.job_unique hj hj' (hR.told.sentCall _ k _ _ _ hs hs')

theorem served_at_most_once_crossed : ∃ (s : TowerCx ℕ ℕ ℕ)
    (job : Job ℕ), Machine.run step install crossedRun = .ok s ∧
    s.jobs 0 = some job ∧ ∃ k call cl rc id, s.Asked id k rc call cl ∧
    job = ⟨cl.remote, ⟨rc, call.req, id, cl.localAddr⟩⟩ := by
  obtain ⟨s, hs, hq⟩ : ∃ s : TowerCx ℕ ℕ ℕ, Machine.run step install crossedRun = .ok s ∧
      (s.jobs 0).isSome = true :=
    Machine.exists_of_run (by decide +kernel)
  obtain ⟨job, hj⟩ := Option.isSome_iff_exists.mp hq
  exact ⟨s, job, hs, hj, (served_at_most_once ⟨_, hs⟩).1 0 job hj⟩

/-! ## Correlation -/

/-- The task `j` was spawned for the request of the call `k`, by a server at the remote address of its client. -/
def Serves (s : TowerCx A B E) (j : JobId) (k : CallId) : Prop :=
  ∃ job call cl, s.jobs j = some job ∧ s.Asked job.request.id k job.request.rc call cl ∧
    job.localAddr = cl.remote ∧ job.request.req = call.req

theorem Rpc.serves (hR : s.Rpc) {j : JobId} {job : Job A} (hj : s.jobs j = some job) : ∃ k, s.Serves j k := by
  obtain ⟨k, call, cl, hask, hreq, -, hlocal, -⟩ := hR.served.jobs j job hj
  exact ⟨k, job, call, cl, hj, hask, hlocal, hreq⟩

/-- A call has one task. -/
theorem Rpc.serves_once (hR : s.Rpc) {j j' : JobId} {k : CallId} (h : s.Serves j k) (h' : s.Serves j' k) :
    j = j' := by
  obtain ⟨job, call, cl, hj, hask, -⟩ := h
  obtain ⟨job', call', cl', hj', hask', -⟩ := h'
  exact hR.job_unique hj hj' (hR.told.sentCall _ k _ _ _ hask.sent hask'.sent)

/-- A task has one call. -/
theorem Rpc.serves_one (hR : s.Rpc) {j : JobId} {k k' : CallId} (h : s.Serves j k) (h' : s.Serves j k') :
    k = k' := by
  obtain ⟨job, call, cl, hj, hask, -⟩ := h
  obtain ⟨job', call', cl', hj', hask', -⟩ := h'
  obtain rfl := Option.some.inj (hj.symm.trans hj')
  exact (hR.told.sentId _ _ _ _ _ hask.sent hask'.sent).1

/-- A call is told the answer of its task. -/
theorem Rpc.answer_served (hR : s.Rpc) {k : CallId} {result : Except E B} {rc : PacketRc}
    (h : .answered k result rc ∈ s.log) : ∃ j, s.Serves j k ∧ .replied j result rc ∈ s.log := by
  obtain ⟨-, -, rc₀, _, job, hsent, -⟩ := hR.told.answered k result rc h
  obtain ⟨-, -, -, call, _, hask⟩ := hR.told.sent _ k rc₀ hsent
  obtain ⟨cl, id, rc₁, j, hask', hj, hrep⟩ := hR.answered hask.ofCall h
  exact ⟨j, ⟨_, call, cl, hj, hask', rfl, rfl⟩, hrep⟩

/-- A response is of one task. -/
theorem Rpc.replied_unique (hR : s.Rpc) {j j' : JobId} {result result' : Except E B} {rc : PacketRc}
    (h : .replied j result rc ∈ s.log) (h' : .replied j' result' rc ∈ s.log) : j = j' := by
  obtain ⟨-, job, hrep⟩ := hR.served.replied j result rc h
  obtain ⟨-, job', hrep'⟩ := hR.served.replied j' result' rc h'
  have hw := Option.some.inj (hrep.packet.symm.trans hrep'.packet)
  have hv : TowerPacket.response (.complete result job.request.id) =
      (.response (.complete result' job'.request.id) : TowerPacket A B E) :=
    congrArg (fun w : WrappedPacket (TowerPacket A B E) => w.packet.value) hw
  exact hR.job_unique hrep.ofJob hrep'.ofJob (TowerResponse.complete.inj (TowerPacket.response.inj hv)).2

/-- **Requests and responses are correlated.**  A call that returns `Ok` or `Err(Left)` returns what the task of
its own request has answered.  Every task is that of a call, and a call has one task at most; and a response
is given to one call at most. -/
theorem calls_are_correlated (hr : Reachable s) :
    (∀ k r, s.phase k = .returned r → (∀ kind, r ≠ .error (.inr kind)) →
      ∃ j result rc, s.Serves j k ∧ .replied j result rc ∈ s.log ∧ r = result.mapError .inl ∧
        ∀ result' rc', .replied j result' rc' ∈ s.log → result' = result) ∧
    (∀ j job, s.jobs j = some job → ∃ k, s.Serves j k) ∧
    (∀ j j' k, s.Serves j k → s.Serves j' k → j = j') ∧
    ∀ k k' result result' rc, .answered k result rc ∈ s.log → .answered k' result' rc ∈ s.log → k = k' := by
  have hR := hr.rpc
  refine ⟨fun k r hp hne => ?_, fun j job hj => hR.serves hj, fun j j' k h h' => hR.serves_once h h',
    fun k k' result result' rc h h' => ?_⟩
  · rcases hR.owned.returned k r hp with rfl | hs
    · exact absurd rfl (hne _)
    · cases hR.told.given k r hs with
      | errored id kind h => exact absurd rfl (hne kind)
      | answered result rc h =>
        obtain ⟨j, hserves, hrep⟩ := hR.answer_served h
        refine ⟨j, result, rc, hserves, hrep, rfl, fun result' rc' h' => ?_⟩
        exact (hR.served.repliedOnce _ _ _ _ _ h' hrep).1
  · obtain ⟨j, hserves, hrep⟩ := hR.answer_served h
    obtain ⟨j', hserves', hrep'⟩ := hR.answer_served h'
    exact hR.serves_one hserves (hR.replied_unique hrep hrep' ▸ hserves')

/-- Two calls cross on the way there and on the way back; each gets the answer to its own request. -/
theorem calls_are_correlated_crossed : ∃ s : TowerCx ℕ ℕ ℕ, Machine.run step install crossedRun = .ok s ∧
    s.phase 0 = .returned (.ok 6) ∧ s.phase 1 = .returned (.ok 9) ∧ ∃ j j',
    s.Serves j 0 ∧ (∃ rc, .replied j (.ok 6) rc ∈ s.log) ∧
    s.Serves j' 1 ∧ ∃ rc, .replied j' (.ok 9) rc ∈ s.log := by
  obtain ⟨s, hs, hq⟩ : ∃ s : TowerCx ℕ ℕ ℕ, Machine.run step install crossedRun = .ok s ∧
      (s.phase 0, s.phase 1) = (.returned (.ok 6), .returned (.ok 9)) := Machine.exists_of_run (by decide +kernel)
  simp only [Prod.mk.injEq] at hq
  obtain ⟨hanswer, -⟩ := calls_are_correlated ⟨_, hs⟩
  have own : ∀ {k b}, s.phase k = .returned (.ok b) → ∃ j, s.Serves j k ∧ ∃ rc, .replied j (.ok b) rc ∈ s.log := by
    intro k b hk
    obtain ⟨j, result, rc, hserves, hrep, heq, -⟩ := hanswer k _ hk (by simp)
    cases result with
    | error e => cases heq
    | ok b' =>
      cases heq
      exact ⟨j, hserves, rc, hrep⟩
  obtain ⟨j, h1, h2⟩ := own hq.1
  obtain ⟨j', h3, h4⟩ := own hq.2
  exact ⟨s, hs, hq.1, hq.2, j, j', h1, h2, h3, h4⟩

/-! ## Waiting -/

/-- A poll of the future of a call that waits for its responder. -/
theorem awaitResponder_pending {k : CallId} : (∀ r, (s.awaitResponder k).phase k ≠ .returned r) ↔
    s.responder k = .unsent := by
  unfold awaitResponder
  split <;> rename_i h
  · simp [returns, h]
  · simp [h]
  · simp [returns, h]
  · simp [returns, h]

theorem awaitResponder_frame (k : CallId) :
    (s.awaitResponder k).responder = s.responder ∧ (s.awaitResponder k).calls = s.calls := by
  unfold awaitResponder
  split <;> exact ⟨rfl, rfl⟩

/-- A poll of the future of a call. -/
theorem Owned.pollCall (hO : s.Owned) {k : CallId} {call : Call A} (hk : s.calls k = some call)
    (h : s.pollCall k = .ok s') :
    ((∀ r, s'.phase k ≠ .returned r) ↔ s'.responder k = .unsent) ∧ s'.calls = s.calls := by
  have await : s' = s.awaitResponder k → ((∀ r, s'.phase k ≠ .returned r) ↔ s'.responder k = .unsent) ∧
      s'.calls = s.calls := by
    rintro rfl
    rw [(awaitResponder_frame k).1]
    exact ⟨awaitResponder_pending, (awaitResponder_frame k).2⟩
  unfold TowerCx.pollCall at h
  rw [hk] at h
  dsimp only at h
  cases hp : s.phase k with
  | created =>
    rw [hp] at h
    dsimp only at h
    split_ifs at h
    · cases h
      simp
    · cases h
      simp [TowerCx.returns, hO.created k hp]
  | sending =>
    rw [hp] at h
    dsimp only at h
    split_ifs at h with hm
    · cases h
      -- in the channel
      have hin : k ∈ s.senders call.client := List.mem_append_left _ (List.contains_iff_mem.mp hm)
      simp [hp, ((hO.owned _ k).mp hin).2]
    · cases h
      exact await rfl
  | receiving =>
    rw [hp] at h
    cases h
    exact await rfl
  | returned r => rw [hp] at h; cases h
  | dropped => rw [hp] at h; cases h

/-- Neither task of the client is there. -/
def Gone (s : TowerCx A B E) (c : ClientId) : Prop := ∀ t : ClientTask, t.client = c → s.hasTask t = false

/-- The `Sender`s of a client are in its tasks. -/
theorem Owned.senders_gone (hO : s.Owned) {c : ClientId} (h : s.Gone c) : s.senders c = [] := by
  have hs : s.sendTask c = .dropped := by simpa [hasTask, isOpen] using h (.send c) rfl
  rw [senders, entries, hO.sendGone _ hs, hO.gone _ hs (h (.recv c) rfl), hs]
  rfl

/-- **No call is stranded.**  After a poll the future of a call is pending if and only if the `Sender` of the
call is in the channel, in `send_task` or in the map of its client, of which it is in one; and then one of the
two tasks is there.  So a call has returned when both are gone, and also when the client is dropped, other
than in a poll of one of them. -/
theorem call_waits_iff (hr : Reachable s) {k : CallId} {call : Call A} (hk : s.calls k = some call)
    (h : s.step (.pollCall k) = .ok s') :
    ((∀ r, s'.phase k ≠ .returned r) ↔ k ∈ s'.senders call.client) ∧ (s'.senders call.client).Nodup ∧
      (k ∈ s'.senders call.client → s'.sendTask call.client ≠ .dropped ∨ s'.recvTask call.client = true) ∧
      (s'.sendTask call.client = .dropped → s'.recvTask call.client = false → ∃ r, s'.phase k = .returned r) ∧
      (s'.live call.client = false → s'.polled ≠ some (.send call.client) → s'.polled ≠ some (.recv call.client) →
        ∃ r, s'.phase k = .returned r) := by
  have hr' : Reachable s' := hr.trans (.single h)
  have hO := hr'.rpc.owned
  obtain ⟨hpending, hcalls⟩ := hr.rpc.owned.pollCall hk h
  have hiff : (∀ r, s'.phase k ≠ .returned r) ↔ k ∈ s'.senders call.client := by
    rw [hpending, hO.owned]
    exact ⟨fun h => ⟨⟨call, hcalls ▸ hk, rfl⟩, h⟩, And.right⟩
  have returned : s'.Gone call.client → ∃ r, s'.phase k = .returned r := fun hgone => by
    by_contra hne
    have hin := hiff.mp (not_exists.mp hne)
    rw [hO.senders_gone hgone] at hin
    cases hin
  refine ⟨hiff, hO.nodup _, fun hin => ?_, fun hs hrecv => returned fun t ht => ?_, fun hl h1 h2 => returned
    fun t ht => ?_⟩
  · by_contra hgone
    obtain ⟨hs, hrecv⟩ : s'.sendTask call.client = .dropped ∧ s'.recvTask call.client = false := by
      simpa using hgone
    rw [hO.senders_gone fun t ht => by cases t <;> cases ht <;> simp [hasTask, isOpen, hs, hrecv]] at hin
    cases hin
  · cases t <;> cases ht <;> simp [hasTask, isOpen, hs, hrecv]
  · -- what is left of its tasks would be polled
    by_contra ht'
    have hp := (hr'.rpc.hung t (ht ▸ hl) (by simpa using ht')).1
    cases t <;> cases ht
    · exact h1 hp
    · exact h2 hp

/-- A call is in the channel; the client is dropped. -/
def strandedRun : List (TowerLabel ℕ ℕ ℕ) := [.newClient 1 ⟨2, 7⟩, .call 0 5, .pollCall 0, .dropClient 0 false]

theorem call_waits_iff_dropped : ∃ s s' : TowerCx ℕ ℕ ℕ, Machine.run step install strandedRun = .ok s ∧
    s.step (.pollCall 0) = .ok s' ∧ s.phase 0 = .sending ∧ ∃ r, s'.phase 0 = .returned r := by
  obtain ⟨s', hs', hq⟩ : ∃ s' : TowerCx ℕ ℕ ℕ, Machine.run step install (strandedRun ++ [.pollCall 0]) = .ok s' ∧
      (s'.live 0, s'.polled) = (false, none) := Machine.exists_of_run (by decide +kernel)
  obtain ⟨s, hs, hst⟩ := Machine.run_append.mp hs'
  obtain ⟨s₁, hs₁, hk⟩ : ∃ s : TowerCx ℕ ℕ ℕ, Machine.run step install strandedRun = .ok s ∧
      (s.calls 0, s.phase 0) = (some ⟨0, 5⟩, .sending) := Machine.exists_of_run (by decide +kernel)
  obtain rfl : s₁ = s := Except.ok.inj (hs₁.symm.trans hs)
  have hst := Machine.run_single.mp hst
  simp only [Prod.mk.injEq] at hk hq
  exact ⟨s₁, s', hs₁, hst, hk.2, (call_waits_iff ⟨_, hs₁⟩ hk.1 hst).2.2.2.2 hq.1 (by simp [hq.2]) (by simp [hq.2])⟩

/-! ## A client that is gone -/

/-- It is a call of the client whose future has not come to its end. -/
def Outstanding (s : TowerCx A B E) (c : ClientId) (k : CallId) : Prop :=
  s.CallOf c k ∧ (∀ r, s.phase k ≠ .returned r) ∧ s.phase k ≠ .dropped

/-- A step only does something with a `Sender` that is in a client, or makes one. -/
theorem Act.responder (h : Act s s') (hO : s.Owned) {c : ClientId} {k : CallId} (hg : s.Gone c)
    (hk : s.CallOf c k) : s'.responder k = s.responder k := by
  have hout : ∀ c', k ∉ s.senders c' := fun c' hin => by
    obtain rfl : c' = c := callOf_unique ((hO.owned c' k).mp hin).1 hk
    rw [hO.senders_gone hg] at hin
    cases hin
  have hentry : ∀ {c' p}, p ∈ s.entries c' → p.2 ≠ k := fun {c' p} hp h0 =>
    hout c' (List.mem_append_right _ (h0 ▸ List.mem_map_of_mem hp))
  have hresponders : ∀ c', k ∉ (s.responders c').map Prod.snd := fun c' hin => by
    obtain ⟨p, hp, h0⟩ := List.mem_map.mp hin
    exact hentry (List.mem_append_right _ hp) h0
  cases h with
  | call c' req hl =>
    obtain ⟨call, hk, -⟩ := hk
    have h0 : k ≠ s.callCount := fun h0 => by
      rw [h0, hO.callLt _ le_rfl] at hk
      cases hk
    exact Function.update_of_ne h0 _ _
  | queue k' call hk' hp ho =>
    have h0 : k ≠ k' := by
      rintro rfl
      obtain rfl : call.client = c := callOf_unique ⟨call, hk', rfl⟩ hk
      exact ho (by simpa [TowerCx.hasTask, isOpen] using hg (.send call.client) rfl)
    exact Function.update_of_ne h0 _ _
  | dropSend c' =>
    rw [dropSend_eq]
    exact if_neg fun hin => hout c' (cutOff_sublist.subset hin)
  | dropRecv c' s' hr h =>
    obtain ⟨cl, net, hc, hnet, rfl⟩ := dropRecv_ok h
    split
    · rfl
    · exact if_neg (hresponders c')
  | fail c' id k' kind hs =>
    have h0 : k' ≠ k := hentry (p := (id, k')) (List.mem_append_left _ (by rw [hs]; exact List.mem_cons_self))
    exact if_neg fun hin => h0 (List.mem_singleton.mp hin).symm
  | clear c' cl kind net hc hr h => exact if_neg (hresponders c')
  | answer c' cl rc w result id k' msgs net hc hr hm h hw hv hk' =>
    obtain ⟨l₁, l₂, hl, -⟩ := hO.lookup hk'
    have h0 : k' ≠ k := hentry (p := (id, k')) (List.mem_append_right _ (by rw [hl]; simp))
    exact if_neg fun hin => h0 (List.mem_singleton.mp hin).symm
  | serverEnds v sv phase s' hv hp hph h =>
    obtain ⟨net, hnet, h⟩ := inNet_bind.mp h
    cases h
    rfl
  | _ => rfl

/-- The tasks of a client that were dropped do not come back. -/
theorem Acts.hasTask (h : Acts s s') {t : ClientTask} (hc : t.client < s.clientCount) (ht : s.hasTask t = false) :
    s'.hasTask t = false ∧ t.client < s'.clientCount := by
  induction h with
  | refl => exact ⟨ht, hc⟩
  | tail _ h ih =>
    refine ⟨?_, ih.2.trans_le h.clientCount_le⟩
    by_contra hne
    rcases h.hasTask (by simpa using hne) with h0 | h0
    · exact absurd (h0.symm.trans ih.1) (by simp)
    · exact ih.2.ne h0.1

theorem Acts.callOf (h : Acts s s') (hR : s.Rpc) {c : ClientId} {k : CallId} (hk : s.CallOf c k) :
    s'.CallOf c k := by
  induction h with
  | refl => exact hk
  | tail hm h ih =>
    have hRm := hR.acts hm
    obtain ⟨call, hcall, hc⟩ := ih
    exact ⟨call, (h.later hRm.wired hRm.owned).calls _ _ hcall, hc⟩

/-- And what its calls were told stays what it is. -/
theorem Acts.responder (h : Acts s s') (hR : s.Rpc) {c : ClientId} {k : CallId} (hg : s.Gone c)
    (hk : s.CallOf c k) : s'.responder k = s.responder k := by
  induction h with
  | refl => rfl
  | tail hm h ih =>
    have hRm := hR.acts hm
    have hgm : Gone _ c := fun t ht => (Acts.hasTask hm (ht ▸ hR.owned.client_lt hk) (hg t ht)).1
    exact (h.responder hRm.owned hgm (Acts.callOf hm hR hk)).trans ih

/-- The poll of an outstanding call whose client is gone. -/
theorem Gone.pollCall {c : ClientId} {k : CallId} (hg : s.Gone c) (hO : s.Owned) (hk : s.Outstanding c k) :
    ∃ s', s.pollCall k = .ok s' ∧ ((∃ r, s.responder k = .sent r ∧ s'.phase k = .returned r) ∨
      (∀ r, s.responder k ≠ .sent r) ∧ s'.phase k = .returned connectionReset) := by
  obtain ⟨⟨call, hcall, rfl⟩, hreturned, hdropped⟩ := hk
  have hs : s.sendTask call.client = .dropped := by simpa [hasTask, isOpen] using hg (.send call.client) rfl
  have hunsent : s.responder k ≠ .unsent := fun h => by
    have hin := (hO.owned call.client k).mpr ⟨⟨call, hcall, rfl⟩, h⟩
    rw [hO.senders_gone hg] at hin
    cases hin
  have await : (∃ r, s.responder k = .sent r ∧ (s.awaitResponder k).phase k = .returned r) ∨
      (∀ r, s.responder k ≠ .sent r) ∧ (s.awaitResponder k).phase k = .returned connectionReset := by
    unfold awaitResponder
    cases hr : s.responder k with
    | sent r => exact Or.inl ⟨r, rfl, by simp [returns]⟩
    | unsent => exact absurd hr hunsent
    | none => exact Or.inr ⟨by simp, by simp [returns]⟩
    | canceled => exact Or.inr ⟨by simp, by simp [returns]⟩
  unfold TowerCx.pollCall
  rw [hcall]
  dsimp only
  cases hp : s.phase k with
  | created =>
    refine ⟨_, if_neg (by simp [isOpen, hs]), Or.inr ⟨fun r hr => ?_, by simp [returns]⟩⟩
    rw [hO.created k hp] at hr
    cases hr
  | sending => exact ⟨_, if_neg (by simp [hO.sendGone _ hs]), await⟩
  | receiving => exact ⟨_, rfl, await⟩
  | returned r => exact absurd hp (hreturned r)
  | dropped => exact absurd hp hdropped

/-- The client is dropped, or its two tasks are aborted (as by a stop of their node), and in no poll of them. -/
inductive Released (s : TowerCx A B E) (c : ClientId) (s' : TowerCx A B E) : Prop
  | dropped (h : s.step (.dropClient c false) = .ok s') (hp : ∀ t : ClientTask, t.client = c → s.polled ≠ some t)
  | stopped (h : ∀ t : ClientTask, t.client = c → ∃ m m', Machine.Steps step s m ∧ m.polled ≠ some t ∧
      m.step (.abort t) = .ok m' ∧ Machine.Steps step m' s')

theorem Steps.acts (h : Machine.Steps step s s') : Acts s s' :=
  h.induct (P := Acts s) .refl fun _ _ _ _ hm h => hm.trans (step_acts h)

theorem dropClient_gone {c : ClientId} (h : s.step (.dropClient c false) = .ok s') :
    (∀ t : ClientTask, t.client = c → s'.hasTask t = true → s.polled = some t) ∧
      ∀ k r, s'.responder k = .sent r ↔ s.responder k = .sent r := by
  simp only [step, dropClient] at h
  split_ifs at h with hl hb
  · cases hb
  · obtain ⟨m, hm, h⟩ := Except.bind_eq_ok_iff.mp h
    obtain ⟨s₁, h₁, rfl⟩ := abort_live hm
    obtain ⟨s₂, h₂, rfl⟩ := abort_live h
    have ha := abort_ok h₁
    have hb := abort_ok h₂
    refine ⟨fun t ht hin => ?_, fun k r => (hb.sent k r).trans (ha.sent k r)⟩
    cases t with
    | send c' =>
      obtain rfl : c' = c := ht
      exact (ha.gone (hb.other _ hin)).1
    | recv c' =>
      obtain rfl : c' = c := ht
      exact ha.polled.symm.trans (hb.gone hin).1

theorem Released.gone {c : ClientId} (h : s.Released c s') (hc : c < s.clientCount) :
    s'.Gone c ∧ Machine.Steps step s s' := by
  cases h with
  | dropped h hp =>
    refine ⟨fun t ht => ?_, .single h⟩
    by_contra hin
    exact hp t ht ((dropClient_gone h).1 t ht (by simpa using hin))
  | stopped h =>
    refine ⟨fun t ht => ?_, ?_⟩
    · obtain ⟨m, m', h1, hp, hst, h2⟩ := h t ht
      have ha := abort_ok (t := t) hst
      have hgone : m'.hasTask t = false := by
        by_contra hin
        exact hp (ha.gone (by simpa using hin)).1
      have hle := Acts.clientCount_le ((Steps.acts h1).trans ha.acts)
      exact (Acts.hasTask (Steps.acts h2) (by rw [ht]; exact hc.trans_le hle) hgone).1
    · obtain ⟨m, m', h1, -, hst, h2⟩ := h (.send c) rfl
      exact (h1.trans (.single hst)).trans h2

/-- **A client that is dropped strands no call.**  Once the client is dropped, or its node is stopped, in no
poll of its own tasks, the next poll of each of its calls that is outstanding returns: what the call was told
before, or `ConnectionReset` when nothing was; the drop itself tells no call anything. -/
theorem released_client_strands_no_call (hr : Reachable s) {c : ClientId} (h : s.Released c s') :
    (∀ k, s.CallOf c k → ∀ m, Machine.Steps step s' m → m.Outstanding c k → ∃ m', m.step (.pollCall k) = .ok m' ∧
      ((∃ r, s'.responder k = .sent r ∧ m'.phase k = .returned r) ∨
        (∀ r, s'.responder k ≠ .sent r) ∧ m'.phase k = .returned connectionReset)) ∧
    ∀ k r, s.step (.dropClient c false) = .ok s' → (s'.responder k = .sent r ↔ s.responder k = .sent r) := by
  refine ⟨fun k hk m hm ho => ?_, fun k r h => (dropClient_gone h).2 k r⟩
  have hR := hr.rpc
  obtain ⟨hg, hsteps⟩ := h.gone (hR.owned.client_lt hk)
  have hR' : s'.Rpc := hR.acts (Steps.acts hsteps)
  have hk' : s'.CallOf c k := Acts.callOf (Steps.acts hsteps) hR hk
  have hgm : m.Gone c := fun t ht => (Acts.hasTask (Steps.acts hm) (ht ▸ hR'.owned.client_lt hk') (hg t ht)).1
  obtain ⟨m', hst, hp⟩ := hgm.pollCall (hR'.acts (Steps.acts hm)).owned ho
  rw [Acts.responder (Steps.acts hm) hR' hg hk'] at hp
  exact ⟨m', hst, hp⟩

/-- Of two calls one is in the map and one in the channel; then the client is dropped. -/
def releasedRun : List (TowerLabel ℕ ℕ ℕ) :=
  [.newClient 1 ⟨2, 7⟩, .call 0 5, .call 0 8, .pollCall 0, .pollTask (.send 0), .pollSend 0 (.ready (.ok ())),
    .endPoll, .pollCall 1]

theorem released_client_strands_no_call_dropped : ∃ s s' m : TowerCx ℕ ℕ ℕ,
    Machine.run step install releasedRun = .ok s ∧ s.step (.dropClient 0 false) = .ok s' ∧
    s'.step (.pollCall 0) = .ok m ∧
      m.phase 0 = .returned connectionReset := by
  obtain ⟨s', hs', hq⟩ : ∃ s' :
      TowerCx ℕ ℕ ℕ, Machine.run step install (releasedRun ++ [.dropClient 0 false]) = .ok s' ∧
      (s'.calls 0, s'.phase 0, s'.responder 0) = (some ⟨0, 5⟩, .sending, .canceled) := Machine.exists_of_run rfl
  obtain ⟨s, hs, hst⟩ := Machine.run_append.mp hs'
  obtain ⟨s₁, hs₁, hk⟩ : ∃ s : TowerCx ℕ ℕ ℕ, Machine.run step install releasedRun = .ok s ∧
      (s.calls 0, s.polled) = (some ⟨0, 5⟩, none) := Machine.exists_of_run (by decide +kernel)
  obtain rfl : s₁ = s := Except.ok.inj (hs₁.symm.trans hs)
  have hst := Machine.run_single.mp hst
  simp only [Prod.mk.injEq] at hk hq
  have hrel : s₁.Released 0 s' := .dropped hst fun t _ => by simp [hk.2]
  obtain ⟨m, hm, hp⟩ := (released_client_strands_no_call ⟨_, hs₁⟩ hrel).1 0 ⟨_, hk.1, rfl⟩ s' (.refl s')
    ⟨⟨_, hq.1, rfl⟩, by simp [hq.2.1], by simp [hq.2.1]⟩
  refine ⟨s₁, s', m, hs₁, hst, hm, ?_⟩
  rcases hp with ⟨r, hr, -⟩ | ⟨-, hp⟩
  · rw [hq.2.2] at hr
    cases hr
  · exact hp

end TowerCx

end Refault
