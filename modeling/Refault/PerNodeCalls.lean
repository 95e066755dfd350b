import Refault.PerNode

/-!
# Refault.PerNodeCalls — which `NodeSimulator`s a stop or a start calls

A stop or a start of `n` is followed from its first step to its return.  Its round runs in the frame of the
call or in the frame that follows it there, on node `n`, and visits the slots in order; rounds of calls that
are made meanwhile have their frames above.  So the calls recorded at the depth of that frame are those of the
stop or start itself.
-/

namespace Refault

namespace SimCx

variable {V Q : Type}

/-- A stop or a start of `n` begins with `l`, which is to tell the simulators `cb`. -/
inductive Tells (s : SimCx V Q) : Label V → Callback → NodeId → Prop
  | stop (l : Label V) (n : NodeId) (h : s.Stops l n) : Tells s l .stop n
  | start (n : NodeId) (hrun : s.ex.runLevel n = some .stopped) : Tells s (.user (.start n)) .start n

/-- A stop of a node that does not run, or a start of one that does. -/
inductive Repeats (s : SimCx V Q) : Label V → Prop
  | stop (n : NodeId) (order : List Id) (hrun : s.ex.runLevel n ≠ some .running) :
      Repeats s (.user (.stop n order))
  | final (n : NodeId) (nodes : List NodeId) (rest : List (Frame V)) (order : List Id)
      (hk : s.stack = .stopAll (n :: nodes) :: rest) (hrun : s.ex.runLevel n ≠ some .running) :
        Repeats s (.run order)
  | start (n : NodeId) (hrun : s.ex.runLevel n = some .running) : Repeats s (.user (.start n))

/-- How far a call is that is to tell `cb`, in the frame `f`: it has told the simulators `tys`. -/
inductive Stage (s : SimCx V Q) (cb : Callback) : Frame V → List SimTy → Prop
  | aborting (ids : List Id) (c : NodeId) (h : cb = .stop) : Stage s cb (.stopNode ids c) []
  | calling (len : ℕ) (visited idx : List ℕ) (c : NodeId) (tys : List SimTy)
      (ho : visited ++ idx = (List.range len).reverse)
      (hv : List.Forall₂ (fun i ty => s.simulatorsByType ty = some i) visited tys) :
        Stage s cb (.sims cb len idx c) tys

variable [KeyedQueue Q Loc Instant] {b : SimBuilder} {s s' : SimCx V Q} {l : Label V} {cb : Callback} {n : NodeId}

theorem Tells.spec (ht : s.Tells l cb n) (h : s.step l = .ok s') :
    s'.currentNode = n ∧ ∃ f base, s'.stack = f :: base ∧ s'.Stage cb f [] := by
  cases ht with
  | stop l n hs =>
    obtain ⟨-, order, -, base, -, -, -, -, hcur, hk⟩ := hs.spec h
    exact ⟨hcur, _, base, hk, .aborting _ _ rfl⟩
  | start n hrun =>
    simp only [step] at h
    split at h
    · cases h
    · split_ifs at h
      obtain ⟨-, h⟩ := borrow_bind.mp h
      rw [hrun] at h
      cases h
      exact ⟨rfl, _, _, rfl, .calling _ [] _ _ [] rfl .nil⟩

/-- The indices stay those that were visited. -/
theorem Next.visited (h : Next s l s') {visited : List ℕ} {tys : List SimTy}
    (hv : List.Forall₂ (fun i ty => s.simulatorsByType ty = some i) visited tys) :
    List.Forall₂ (fun i ty => s'.simulatorsByType ty = some i) visited tys :=
  hv.imp fun _ _ hi => h.byType hi

omit [KeyedQueue Q Loc Instant] in
/-- A simulator is among those that were told if its index was visited. -/
theorem Slots.visited (hS : s.Slots) {visited : List ℕ} {tys : List SimTy}
    (hv : List.Forall₂ (fun i ty => s.simulatorsByType ty = some i) visited tys) {i : ℕ} {ty : SimTy}
    (hty : s.simulatorsByType ty = some i) : i ∈ visited ↔ ty ∈ tys := by
  refine List.rel_mem ⟨fun i ty j h1 h2 => ?_, fun i ty ty' h1 h2 => hS.inj ty ty' i h1 h2⟩ hty hv
  rw [h1] at h2
  exact Option.some.inj h2

omit [KeyedQueue Q Loc Instant] in
theorem known_of_visited {visited : List ℕ} {tys : List SimTy}
    (hv : List.Forall₂ (fun i ty => s.simulatorsByType ty = some i) visited tys) :
    ∀ ty ∈ tys, (s.simulatorsByType ty).isSome := by
  induction hv with
  | nil => exact fun ty h => absurd h List.not_mem_nil
  | cons h _ ih => exact List.forall_mem_cons.mpr ⟨by rw [h]; rfl, ih⟩

theorem Stage.keep {f : Frame V} {tys : List SimTy} (hS : s.Stage cb f tys) (h : Next s l s') :
    s'.Stage cb f tys := by
  cases hS with
  | aborting ids c hcb => exact .aborting ids c hcb
  | calling len visited idx c tys ho hv => exact .calling len visited idx c tys ho (h.visited hv)

/-- The last step of `stop_node` before the round, and the steps of its loop. -/
theorem stopNode_goes_on {ids : List Id} {c : NodeId} {base : List (Frame V)}
    (hk : s.stack = .stopNode ids c :: base) (h : s.step l = .ok s') :
    (∃ top ids', s'.stack = top ++ .stopNode ids' c :: base ∧ nodeUnder s'.currentNode top = s.currentNode) ∨
      s'.stack = .sims .stop s.simulators.length (List.range s.simulators.length).reverse c :: base ∧
        s'.currentNode = s.currentNode := by
  cases l with
  | user op =>
    simp only [step, hk] at h
    cases h
  | run order =>
    cases ids with
    | nil =>
      simp only [step, runtime, hk] at h
      obtain ⟨-, h⟩ := borrow_bind.mp h
      cases h
      exact Or.inr ⟨rfl, rfl⟩
    | cons id ids =>
      left
      simp only [step, runtime, hk] at h
      obtain ⟨-, h⟩ := borrow_bind.mp h
      obtain ⟨⟨o, e⟩, -, h⟩ := call_bind.mp h
      cases o with
      | none =>
        cases h
        exact ⟨[], ids, rfl, rfl⟩
      | some t =>
        cases h
        exact ⟨[.discard t.id false s.currentNode], ids, rfl, rfl⟩

end SimCx

namespace PerNodeCx

variable {E V Q : Type} [KeyedQueue Q Loc Instant] {makers : SimTy → Option (ℕ → E)} {b : SimBuilder}
  {s s' : PerNodeCx E V Q} {l : Label V} {cb : Callback} {n : NodeId} {base : List (Frame V)}

/-- A run inside the call that was made from `base`. -/
abbrev Within (makers : SimTy → Option (ℕ → E)) (base : List (Frame V)) (s : PerNodeCx E V Q)
    (ls : List (PerNodeLabel E V)) : Prop :=
  Machine.Along (step makers) (fun m _ => m.cx.Inside base) s ls

/-- The calls at the depth of the call from `base` are one to each `PerNode` among `tys`, on top of `old`. -/
def Made (makers : SimTy → Option (ℕ → E)) (old : List NodeCall) (base : List (Frame V)) (cb : Callback)
    (n : NodeId) (tys : List SimTy) (calls : List NodeCall) : Prop :=
  ∀ ty make, makers ty = some make → callsAt calls (base.length + 1) ty =
    callsAt old (base.length + 1) ty ++ if ty ∈ tys then [⟨base.length + 1, ty, cb, n⟩] else []

/-- How far the call from `base` is: it runs, or it has returned and has told every `PerNode`. -/
inductive Telling (makers : SimTy → Option (ℕ → E)) (old : List NodeCall) (base : List (Frame V)) (cb : Callback)
    (n : NodeId) (s : PerNodeCx E V Q) : Prop
  | running (top : List (Frame V)) (g : Frame V) (tys : List SimTy) (hc : s.cx.Callee base n top g)
      (hS : s.cx.Stage cb g tys) (hm : Made makers old base cb n tys s.calls)
  | returned (tys : List SimTy) (hk : s.cx.stack = base) (ht : ∀ ty, (s.cx.simulatorsByType ty).isSome ↔ ty ∈ tys)
      (hm : Made makers old base cb n tys s.calls)

omit [KeyedQueue Q Loc Instant] in
/-- A step that makes no call at the depth of the call from `base`. -/
theorem Made.same {old : List NodeCall} {tys : List SimTy} {t : PerNodeCx E V Q}
    (hM : Made makers old base cb n tys s.calls) (hf : s.follow makers l = .ok t)
    (hno : ∀ cb len i idx c rest, s.cx.stack = .sims cb len (i :: idx) c :: rest → rest.length ≠ base.length) :
    Made makers old base cb n tys t.calls := by
  intro ty make hm
  rw [← hM ty make hm]
  cases (follow_ok hf hm).2 with
  | add _ _ _ hc | back _ _ _ _ _ _ _ hc => rw [hc]
  | call order cb' len i idx c rest hk hs h hn hc =>
    have hne := hno cb' len i idx c rest hk
    rw [hc]
    split_ifs
    · rw [List.append_nil]
    · simp [callsAt, hne]
  | same _ _ hc => exact hc _

omit [KeyedQueue Q Loc Instant] in
/-- The round of the call tells the next simulator. -/
theorem Made.next {old : List NodeCall} {tys : List SimTy} {t : PerNodeCx E V Q}
    (hM : Made makers old base cb n tys s.calls) (hf : s.follow makers l = .ok t) {order : List Id}
    (hl : l = .run order)
    {len i : ℕ} {idx : List ℕ} {c : NodeId} (hk : s.cx.stack = .sims cb len (i :: idx) c :: base)
    (hn : s.cx.currentNode = n) {sim : SimTy} (hs : s.cx.simulators[i]? = some (some sim)) (hnew : sim ∉ tys)
    (hcb : cb ≠ .create) : Made makers old base cb n (tys ++ [sim]) t.calls := by
  subst hl
  intro ty make hm
  have hold := hM ty make hm
  cases (follow_ok hf hm).2 with
  | call order cb' len' j idx' c' rest hk' hs' h hn' hc =>
    rw [hk] at hk'
    cases hk'
    rw [hs] at hs'
    cases hs'
    rw [if_neg hnew, List.append_nil] at hold
    rw [hc, if_neg hcb, if_pos (by simp), ← hold, hn]
    simp [callsAt]
  | same _ _ hc _ hs' =>
    have hne : ty ≠ sim := by
      rintro rfl
      exact hs' order cb len i idx c base rfl hk hs
    rw [hc, hold]
    simp [hne]

/-- A step inside the call. -/
theorem Telling.cx {old : List NodeCall} (hT : Telling makers old base cb n s) (hr : SimCx.Reachable b s.cx)
    (hin : s.cx.Inside base) (hcb : cb ≠ .create) {cx : SimCx V Q} {t : PerNodeCx E V Q}
    (hst : s.cx.step l = .ok cx)
    (hf : s.follow makers l = .ok t) : Telling makers old base cb n { t with cx := cx } := by
  have hB := hr.base
  have hnext := SimCx.step_next hB hst
  cases hT with
  | returned tys hk =>
    rw [SimCx.Inside, hk] at hin
    exact absurd hin (lt_irrefl _)
  | running top g tys hc hS hM =>
    obtain ⟨hk, hn⟩ := hc
    cases top with
    | cons f top =>
      -- the step is one of a call made meanwhile
      have hM' := hM.same hf fun cb' len i idx c rest hk' => by
        rw [hk] at hk'
        rw [← (List.cons.inj hk').2]
        simp
        omega
      rcases hnext.top hk with ⟨h1, h2⟩ | ⟨gs, f', h1, h2, h3⟩
      · exact .running top g tys ⟨h1, by rw [h2]; exact hn⟩ (hS.keep hnext) hM'
      · refine .running (gs ++ f' :: top) g tys ⟨by simp [h1], ?_⟩ (hS.keep hnext) hM'
        rw [nodeUnder_append, h3, nodeUnder_cons, h2.below]
        exact hn
    | nil =>
      cases hS with
      | aborting ids c hstop =>
        subst hstop
        have hM' := hM.same hf fun cb' len i idx c' rest hk' => by rw [hk] at hk'; cases hk'
        rcases SimCx.stopNode_goes_on hk hst with ⟨top, ids', h1, h2⟩ | ⟨h1, h2⟩
        · exact .running top _ [] ⟨h1, h2.trans hn⟩ (.aborting ids' c rfl) hM'
        · exact .running [] _ [] ⟨h1, h2.trans hn⟩ (.calling _ [] _ c [] rfl .nil) hM'
      | calling len visited idx c tys ho hv =>
        cases idx with
        | nil =>
          have hM' := hM.same hf fun cb' len i idx c' rest hk' => by rw [hk] at hk'; cases hk'
          obtain ⟨-, hlen, rfl⟩ := SimCx.step_sims_nil hk hst
          refine .returned tys rfl (fun ty => ⟨fun hty => ?_, fun hty => ?_⟩) hM'
          · obtain ⟨i, hi⟩ := Option.isSome_iff_exists.mp hty
            have hlt : i < s.cx.simulators.length := by
              refine (hr.slots.bound ty i hi).resolve_right fun hG => ?_
              have := hG.rounds
              simp [SimCx.rounds, hk, Frame.phase] at this
            refine (hr.slots.visited hv hi).mp ?_
            rw [← List.append_nil visited, ho]
            simpa [← hlen] using hlt
          · exact SimCx.known_of_visited hv ty hty
        | cons i idx =>
          obtain ⟨⟨order, hl⟩, sim, hs, rfl⟩ := SimCx.step_sims hk hst
          have hslot := hr.slots.slot i sim hs
          have hnew : sim ∉ tys := by
            intro hmem
            have hnd : (visited ++ i :: idx).Nodup := ho ▸ List.nodup_reverse.mpr List.nodup_range
            exact (List.nodup_append.mp hnd).2.2 i ((hr.slots.visited hv hslot).mpr hmem) i List.mem_cons_self rfl
          refine .running [_] _ (tys ++ [sim]) ⟨rfl, hn⟩
            (.calling len (visited ++ [i]) idx c _ (by simp [← ho]) ?_) (hM.next hf hl hk hn hs hnew hcb)
          exact List.rel_append hv (.cons hslot .nil)

theorem Telling.run {old : List NodeCall} {ls : List (PerNodeLabel E V)} {m : PerNodeCx E V Q}
    (hT : Telling makers old base cb n s) (hr : SimCx.Reachable b s.cx) (hcb : cb ≠ .create)
    (hw : Within makers base s ls) (hrun : Machine.run (step makers) s ls = .ok m) :
    Telling makers old base cb n m := by
  have key := hw.inv (I := fun m => SimCx.Reachable b m.cx ∧ Telling makers old base cb n m) ?_ hrun ⟨hr, hT⟩
  · exact key.2
  · rintro m l m' ⟨hm, hT⟩ hin hst
    by_cases hl : ∃ l', l = .cx l'
    · obtain ⟨l', rfl⟩ := hl
      obtain ⟨cx, t, h1, h2, rfl⟩ := step_cx hst
      exact ⟨hm.tail h1, hT.cx hm hin hcb h1 h2⟩
    · -- an access to an entry
      push Not at hl
      obtain ⟨ty, k, f, p, -, rfl, -⟩ := step_access hl hst
      refine ⟨hm, ?_⟩
      cases hT with
      | running top g tys hc hS hM => exact .running top g tys hc hS hM
      | returned tys hk ht hM => exact .returned tys hk ht hM

omit [KeyedQueue Q Loc Instant] in
theorem follow_of_not_sims (hl : (∃ k order, l = .user (.stop k order)) ∨ (∃ k, l = .user (.start k)) ∨
    ∃ order nodes rest, l = .run order ∧ s.cx.stack = .stopAll nodes :: rest) : s.follow makers l = .ok s := by
  rcases hl with ⟨k, order, rfl⟩ | ⟨k, rfl⟩ | ⟨order, nodes, rest, rfl, hk⟩
  · rfl
  · rfl
  · unfold follow
    rw [hk]

/-- The call begins, and has told no one. -/
theorem Telling.start {s₁ : PerNodeCx E V Q} (ht : s.cx.Tells l cb n) (hst : step makers s (.cx l) = .ok s₁)
    {f : Frame V} (hk : s₁.cx.stack = f :: base) : Telling makers s.calls base cb n s₁ := by
  obtain ⟨cx, t, h1, h2, rfl⟩ := step_cx hst
  have hsame : s.follow makers l = .ok s := by
    refine follow_of_not_sims ?_
    cases ht with
    | stop l n hs =>
      cases hs with
      | user n order hrun => exact Or.inl ⟨n, order, rfl⟩
      | final n nodes rest order hk hrun => exact Or.inr (Or.inr ⟨order, _, rest, rfl, hk⟩)
    | start n hrun => exact Or.inr (Or.inl ⟨n, rfl⟩)
  rw [hsame] at h2
  cases h2
  obtain ⟨hcur, f', base', hk', hS⟩ := ht.spec h1
  rw [show cx.stack = f :: base from hk] at hk'
  cases hk'
  exact .running [] f [] ⟨hk, hcur⟩ hS fun ty make hm => by simp

/-- A repeated stop or start does nothing to the vectors, and puts no frame on the stack. -/
theorem step_repeats {s₁ : PerNodeCx E V Q} (hrep : s.cx.Repeats l) (hst : step makers s (.cx l) = .ok s₁) :
    s₁.calls = s.calls ∧ s₁.perNode = s.perNode ∧ s₁.cx.stack.length = s.cx.stack.length := by
  obtain ⟨cx, t, h1, h2, rfl⟩ := step_cx hst
  have hsame : s.follow makers l = .ok s := by
    refine follow_of_not_sims ?_
    cases hrep with
    | stop k order hrun => exact Or.inl ⟨k, order, rfl⟩
    | final k nodes rest order hk hrun => exact Or.inr (Or.inr ⟨order, _, rest, rfl, hk⟩)
    | start k hrun => exact Or.inr (Or.inl ⟨k, rfl⟩)
  rw [hsame] at h2
  cases h2
  refine ⟨rfl, rfl, ?_⟩
  change cx.stack.length = s.cx.stack.length
  have hstop : ∀ {c c' : SimCx V Q} {k : NodeId} {isFinal : Bool}
      {order : List Id}, c.ex.runLevel k ≠ some .running →
      c.stopNode k isFinal order = .ok c' → c'.stack = c.stack := by
    intro c c' k isFinal order hrun h
    obtain ⟨-, nd, hn, ⟨hrun', -⟩ | ⟨-, rfl⟩⟩ := SimCx.stopNode_ok h
    · exact absurd (by simp [Exec.runLevel, hn, hrun']) hrun
    · split_ifs <;> rfl
  cases hrep with
  | stop k order hrun =>
    simp only [SimCx.step] at h1
    split at h1
    · cases h1
    · split_ifs at h1
      rw [hstop hrun h1]
  | final k nodes rest order hk hrun =>
    simp only [SimCx.step, SimCx.runtime, hk] at h1
    have := hstop (c := { s.cx with stack := .stopAll nodes :: rest }) hrun h1
    rw [this, hk]
    rfl
  | start k hrun =>
    simp only [SimCx.step] at h1
    split at h1
    · cases h1
    · split_ifs at h1
      obtain ⟨-, h1⟩ := SimCx.borrow_bind.mp h1
      rw [hrun] at h1
      cases h1
      rfl

/-- **A `PerNode` covers every node.**  In every reachable state of a simulation with any `PerNode`s, each
that was added has got one value from its closure for each entry; entry `k` is the value of call `k`, changed
by the accesses to `k` alone; there is one entry for each node when no `create_node` is running; and
`with_node` finds the entry of every node whose creation is over.  A stop of a node that runs and a start of a
node that is stopped have, when they return, called the `NodeSimulator` of that node once in each `PerNode`,
and no other; a repeated stop or start calls none. -/
theorem per_node_covers (hr : Reachable makers b s) :
    (∀ ty make, makers ty = some make → (s.cx.simulatorsByType ty).isSome →
      (s.perNode ty).made = (s.perNode ty).simulators.length ∧
      (∀ k < (s.perNode ty).simulators.length,
        (s.perNode ty).simulators[k]? = some (PerNode.history (make k) (s.perNode ty).accesses k)) ∧
      ((∀ n, ¬ Creating s.cx n) → (s.perNode ty).simulators.length = s.cx.ex.nodes.length) ∧
      ∀ n < s.cx.ex.nodes.length, ¬ Creating s.cx n → ∀ i rest f, s.cx.stack = .withSim i ty :: rest →
        ∃ s', step makers s (.withNode n f) = .ok s') ∧
    (∀ l cb n s₁ f base ls m, s.cx.Tells l cb n → step makers s (.cx l) = .ok s₁ → s₁.cx.stack = f :: base →
      Within makers base s₁ ls → Machine.run (step makers) s₁ ls = .ok m → m.cx.stack = base →
      ∀ ty make, makers ty = some make → callsAt m.calls (base.length + 1) ty =
        callsAt s.calls (base.length + 1) ty ++
          if (m.cx.simulatorsByType ty).isSome then [⟨base.length + 1, ty, cb, n⟩] else []) ∧
    ∀ l s₁, s.cx.Repeats l → step makers s (.cx l) = .ok s₁ →
      s₁.calls = s.calls ∧ s₁.perNode = s.perNode ∧ s₁.cx.stack.length = s.cx.stack.length := by
  refine ⟨fun ty make hm hty => ?_, ?_, fun l s₁ => step_repeats⟩
  · obtain ⟨i, hi⟩ := Option.isSome_iff_exists.mp hty
    obtain ⟨hG, hC⟩ := hr.covered ty make i hm hi
    have hle : ∀ n < s.cx.ex.nodes.length, ¬ Creating s.cx n → n < (s.perNode ty).simulators.length := by
      intro n hn hno
      by_contra h
      exact hno (hC.created n (not_lt.mp h) hn)
    refine ⟨hG.made, hG.value, fun hno => ?_, fun n hn hno j rest f hk => ?_⟩
    · have hcount := hC.count
      by_contra hne
      exact absurd (hle (s.perNode ty).simulators.length (by omega) (hno _)) (lt_irrefl _)
    · obtain ⟨p, hp⟩ : ∃ p, (s.perNode ty).index n f = some p := ⟨_, if_pos (hle n hn hno)⟩
      exact ⟨s.set ty p, by simp only [step, hk, hm, hp]⟩
  · intro l cb n s₁ f base ls m ht hst hk hw hrun hm ty make hty
    have hcb : cb ≠ .create := by cases ht <;> decide
    have hr₁ : Reachable makers b s₁ := Machine.Steps.tail hr hst
    have hT := (Telling.start ht hst hk).run hr₁.sim hcb hw hrun
    cases hT with
    | running top g tys hc hS hM =>
      have := congrArg List.length (hc.1.symm.trans hm)
      simp at this
      omega
    | returned tys hk' hknown hM =>
      rw [hM ty make hty]
      simp only [hknown]

/-- Simulator 0 is a `PerNode`, whose closure counts from 10. -/
def countFrom10 : SimTy → Option (ℕ → ℕ)
  | 0 => some fun k => 10 + k
  | _ => none

/-- A node is created, and `with_node` changes its entry. -/
def createRun : List (PerNodeLabel ℕ ℕ) :=
  [.cx (.user (.addSimulator 0)), .cx (.user .createNode), .cx (.run []), .cx (.user (.done none)), .cx (.run []),
    .cx (.user (.withSimulator 0)), .withNode 1 (· + 1)]

theorem per_node_covers_created : ∃ s : PerNodeCx ℕ ℕ (SwapArray Loc Instant),
    Machine.run (step countFrom10) (install SimCx.epoch) createRun = .ok s ∧
    (s.perNode 0).simulators = [10, 12] ∧ (s.perNode 0).simulators.length = s.cx.ex.nodes.length := by
  obtain ⟨s, hs, hq⟩ : ∃ s : PerNodeCx ℕ ℕ (SwapArray Loc Instant),
      Machine.run (step countFrom10) (install SimCx.epoch) createRun = .ok s ∧
      ((s.perNode 0).simulators, s.cx.simulatorsByType 0, s.cx.rounds) = ([10, 12], some 0, []) :=
    Machine.exists_of_run rfl
  simp only [Prod.mk.injEq] at hq
  obtain ⟨hsim, hty, hrounds⟩ := hq
  have hno : ∀ n, ¬ Creating s.cx n := by
    rintro n ⟨r, hr, -⟩
    rw [hrounds] at hr
    cases hr
  have hr : Reachable countFrom10 SimCx.epoch s := ⟨_, hs⟩
  have hcovers := (per_node_covers hr).1 0 _ rfl (by rw [hty]; rfl)
  exact ⟨s, hs, hsim, hcovers.2.2.1 hno⟩

end PerNodeCx

end Refault
