import Refault.Lifecycle
import Refault.Rounds

/-!
# Refault.Callbacks — what a simulator is told of a node

A simulator hears of a node through the rounds: a creation, a stop or a start tells it once.  The run level
changes when a round begins, so what the simulator has heard and what it still will hear from the round in
progress agree with it (`Follows`), unless a round runs while a simulator is out; such a round never ends.  A
`start` from a destructor that runs while the node's tasks are aborted is a second round of the same node, and
overtakes the stop.
-/

namespace Refault

variable {V Q : Type}

/-- Strictly alternating stops and starts, beginning with a stop; the flag says that the last is a stop. -/
inductive Alternating : Bool → List Callback → Prop
  | nil : Alternating false []
  | stop {h : List Callback} (ha : Alternating false h) : Alternating true (h ++ [.stop])
  | start {h : List Callback} (ha : Alternating true h) : Alternating false (h ++ [.start])

/-- The flag says what it says. -/
theorem Alternating.last {b : Bool} {h : List Callback} (ha : Alternating b h) :
    b = decide (h.getLast? = some .stop) := by
  cases ha <;> simp

/-- The callbacks for `n` are its creation, of every node but the first, and alternating stops and starts. -/
def Told (n : NodeId) (b : Bool) (cbs : List Callback) : Prop :=
  ∃ h, cbs = (if n = initNode then [] else [.create]) ++ h ∧ Alternating b h

/-- What a simulator has heard before a round of `n` tells it `cb`. -/
def Before (n : NodeId) (cbs : List Callback) : Callback → Prop
  | .create => n ≠ initNode ∧ cbs = []
  | .stop => Told n false cbs
  | .start => Told n true cbs

theorem Before.told {n : NodeId} {cbs : List Callback} {cb : Callback} (h : Before n cbs cb) :
    Told n (decide (cb = .stop)) (cbs ++ [cb]) := by
  cases cb with
  | create =>
    obtain ⟨hn, rfl⟩ := h
    exact ⟨[], by simp [hn], .nil⟩
  | stop =>
    obtain ⟨h, rfl, ha⟩ := h
    exact ⟨_, List.append_assoc .., ha.stop⟩
  | start =>
    obtain ⟨h, rfl, ha⟩ := h
    exact ⟨_, List.append_assoc .., ha.start⟩

namespace SimCx

variable [KeyedQueue Q Loc Instant] {b : SimBuilder} {s s' : SimCx V Q} {l : Label V}

/-! ## Slots -/

/-- The teardown has begun to drop the simulators: no node runs or will run. -/
structure Gone (s : SimCx V Q) : Prop where
  stopped : s.ex.finalStopped = true
  levels : ∀ n < s.ex.nodes.length, s.ex.runLevel n = some .finalStopped
  rounds : s.rounds = []

theorem Gone.step (hG : s.Gone) (h : Next s l s') (hB : s.Base) : s'.Gone := by
  have hlt : ∀ {n : NodeId} {lv : NodeRunLevel}, s.ex.runLevel n = some lv → lv = .finalStopped := fun hn => by
    have := hG.levels _ (Exec.length_of_runLevel hn)
    rw [hn] at this
    exact Option.some.inj this
  refine ⟨h.finalStopped hB hG.stopped, fun n hn => ?_, ?_⟩
  · rcases h.act hB with he | he
    · rw [he] at hn ⊢
      exact hG.levels n hn
    · exact he.final (hG.levels n ((he.closing hG.stopped).2 ▸ hn))
  · cases h.turn hB with
    | calm _ _ hr => rw [hr, hG.rounds]
    | stop _ n level hrun => cases hlt hrun
    | start n hrun => cases hlt hrun
    | create _ hf =>
      rw [hG.stopped] at hf
      cases hf
    | sims _ n o he hr | call _ n cb i idx sim o hs he hr | finish _ n cb o he hr =>
      rw [hG.rounds] at hr
      cases hr

/-- Each registered type has a slot of its own. -/
structure Slots (s : SimCx V Q) : Prop where
  inj : ∀ ty ty' i, s.simulatorsByType ty = some i → s.simulatorsByType ty' = some i → ty = ty'
  bound : ∀ ty i, s.simulatorsByType ty = some i → i < s.simulators.length ∨ s.Gone
  slot : ∀ i sim, s.simulators[i]? = some (some sim) → s.simulatorsByType sim = some i
  out : ∀ i sim, .callback i sim ∈ s.stack ∨ .withSim i sim ∈ s.stack → s.simulatorsByType sim = some i

theorem Slots.step (hS : s.Slots) (hr : Reachable b s) (h : Next s l s') : s'.Slots := by
  have hB := hr.base
  -- the frames, where the types are as before
  have hout : s'.simulatorsByType = s.simulatorsByType → ∀ i sim, .callback i sim ∈ s'.stack ∨
      .withSim i sim ∈ s'.stack → s'.simulatorsByType sim = some i := by
    intro hty i sim hm
    rw [hty]
    rcases hm with hm | hm <;> rcases h.mem_stack hm with hm | hp
    · exact hS.out i sim (Or.inl hm)
    · cases hp with
      | callback _ _ hs => exact hS.slot i sim hs
    · exact hS.out i sim (Or.inr hm)
    · cases hp with
      | withSim _ _ hs => exact hS.slot i sim hs
  have hbound : s'.simulatorsByType = s.simulatorsByType → s'.simulators.length = s.simulators.length →
      ∀ ty i, s'.simulatorsByType ty = some i → i < s'.simulators.length ∨ s'.Gone := by
    intro hty hlen ty i hi
    rw [hty] at hi
    rw [hlen]
    exact (hS.bound ty i hi).imp_right fun hG => hG.step h hB
  have hset : ∀ {i : ℕ} {o : Option SimTy}, s'.simulatorsByType = s.simulatorsByType →
      s'.simulators = s.simulators.set i o →
      (∀ sim, o = some sim → s.simulatorsByType sim = some i) → s'.Slots := by
    intro i o hty hsims ho
    refine ⟨hty ▸ hS.inj, hbound hty (by simp [hsims]), fun j sim hj => ?_, hout hty⟩
    rw [hty]
    rw [hsims, List.getElem?_set] at hj
    split_ifs at hj with h1 h2
    · subst h1
      exact ho sim (Option.some.inj hj)
    · exact hS.slot j sim hj
  cases h with
  | addSimulator ty hu hc hn hf hb =>
    have hnG : ¬ s.Gone := fun hG => by
      rw [hG.stopped] at hf
      cases hf
    have hlt : ∀ {ty' i}, s.simulatorsByType ty' = some i → i < s.simulators.length := fun hi =>
      (hS.bound _ _ hi).resolve_right hnG
    have hne : ∀ {sim i}, s.simulatorsByType sim = some i → sim ≠ ty := by
      rintro sim i h rfl
      rw [hb] at h
      cases h
    have hother : ∀ {sim i}, s.simulatorsByType sim = some i →
        Function.update s.simulatorsByType ty (some s.simulators.length) sim = some i := fun h => by
      rw [Function.update_of_ne (hne h)]
      exact h
    refine ⟨fun ty₁ ty₂ i h1 h2 => ?_, fun ty' i hi => Or.inl ?_, fun i sim hi => ?_,
      fun i sim hm => hother (hS.out i sim hm)⟩
    · by_cases e1 : ty₁ = ty <;> by_cases e2 : ty₂ = ty
      · rw [e1, e2]
      · simp [e1, e2] at h1 h2
        have := hlt h2
        omega
      · simp [e1, e2] at h1 h2
        have := hlt h1
        omega
      · simp [e1, e2] at h1 h2
        exact hS.inj _ _ i h1 h2
    · by_cases e : ty' = ty
      · subst e
        simp at hi
        simp [hi]
      · simp [e] at hi
        have := hlt hi
        simp
        omega
    · rw [List.getElem?_append] at hi
      split_ifs at hi with hlt'
      · exact hother (hS.slot i sim hi)
      · obtain ⟨h0, h1⟩ : i - s.simulators.length = 0 ∧ ty = sim := by
          cases hd : i - s.simulators.length with
          | zero => simpa [hd] using hi
          | succ k => simp [hd] at hi
        subst h1
        simp
        omega
  | withSimulator ty i sim hu hc hs => exact hset rfl rfl (by simp)
  | simsNext order cb len i idx caller rest sim hk hc hs => exact hset rfl rfl (by simp)
  | putBack r i sim rest hk hc hs =>
    refine hset rfl rfl fun sim' h => ?_
    cases h
    exact hS.out i sim (by rcases hk with hk | hk <;> simp [hk])
  | dropSim order time rest sim hk hc hs =>
    have hSh := hB.shape
    rw [hk, hc] at hSh
    obtain ⟨rfl, -⟩ := hSh.nested.dropSims_eq
    have hf := hr.end_stopped (show s.EndFrame time from Or.inl (by rw [hk]; simp))
    have hG : s.Gone := by
      refine ⟨hf, fun n hn => ?_, by simp [SimCx.rounds, hk, Frame.phase]⟩
      rcases hr.closing hf n hn with h1 | ⟨nodes, h1, -⟩
      · exact h1
      · simp [hk] at h1
    have hG' := hG.step (.dropSim order time [] sim hk hc hs) hB
    refine ⟨hS.inj, fun _ _ _ => Or.inr hG', fun i sim hi => hS.slot i sim ?_, hout rfl⟩
    rw [List.getElem?_dropLast] at hi
    split_ifs at hi
    exact hi
  | _ => exact ⟨hS.inj, hbound rfl rfl, hS.slot, hout rfl⟩

theorem Reachable.slots (hr : Reachable b s) : s.Slots := by
  refine hr.induct (P := Slots) ⟨?_, ?_, ?_, ?_⟩ fun m l m' hm hS hst =>
    hS.step (b := b) hm (step_next (Reachable.base hm) hst)
  · exact fun ty ty' i h => by cases h
  · exact fun ty i h => by cases h
  · exact fun i sim h => by cases h
  · exact fun i sim h => by simp [install] at h

/-! ## What a simulator hears -/

/-- The rounds of `n` in progress. -/
def roundsOf (s : SimCx V Q) (n : NodeId) : List Round := s.rounds.filter fun r => r.node = n

/-- How the callbacks for `n` of the simulator in slot `i` agree with the run level and with the round in
progress. -/
inductive Follows (ty : SimTy) (i : ℕ) (n : NodeId) (s : SimCx V Q) : Prop
  /-- there is no such node -/
  | fresh (hn : s.ex.nodes.length ≤ n) (hr : s.roundsOf n = []) (hc : callbacks ty n s.ex.log = [])
  /-- a round of `n` runs while a simulator is out -/
  | out (r : Round) (hr : r ∈ s.roundsOf n) (ho : r.out ≠ [])
  | idle (hn : n < s.ex.nodes.length) (hr : s.roundsOf n = [])
      (hc : Told n (decide (s.ex.runLevel n ≠ some .running)) (callbacks ty n s.ex.log))
  | aborting (hn : n < s.ex.nodes.length) (hr : s.roundsOf n = [⟨n, .aborting, []⟩])
      (hl : s.ex.runLevel n ≠ some .running) (hc : Told n false (callbacks ty n s.ex.log))
  | calling (hn : n < s.ex.nodes.length) (cb : Callback) (idx : List ℕ)
      (hr : s.roundsOf n = [⟨n, .calling cb idx, []⟩])
      (hl : s.ex.runLevel n = some .running ↔ cb ≠ .stop) (hd : idx.Nodup)
      (hi : i ∈ idx → Before n (callbacks ty n s.ex.log) cb)
      (hi' : i ∉ idx → Told n (decide (cb = .stop)) (callbacks ty n s.ex.log))

/-- The step is no start of a node that an unfinished stop of the node is aborting the tasks of. -/
def NoNestedStart (s : SimCx V Q) (l : Label V) : Prop :=
  ∀ n, l = .user (.start n) → s.ex.runLevel n = some .stopped → ∀ r ∈ s.rounds, r.node = n → r.phase ≠ .aborting

section Rounds

omit [KeyedQueue Q Loc Instant]

variable {n : NodeId} {ty : SimTy} {i : ℕ}

theorem mem_roundsOf {r : Round} : r ∈ s.roundsOf n ↔ r ∈ s.rounds ∧ r.node = n := by
  simp [roundsOf]

theorem roundsOf_cons {p : Round} {o : List Round} (hr : s.rounds = p :: o) :
    s.roundsOf n = if p.node = n then p :: o.filter (fun r => r.node = n) else o.filter (fun r => r.node = n) := by
  rw [roundsOf, hr, List.filter_cons]
  by_cases h : p.node = n <;> simp [h]

/-- A round of `n` that runs while a simulator is out goes on. -/
theorem Turn.keeps_out (h : Turn s s' l) (hW : s.Waits) {r : Round} (hr : r ∈ s.roundsOf n) (ho : r.out ≠ []) :
    ∃ r' ∈ s'.roundsOf n, r'.out ≠ [] := by
  obtain ⟨hr, hn⟩ := mem_roundsOf.mp hr
  -- the first round is replaced by one with the same node and the same slots
  have hhead : ∀ {p p' : Round} {o : List Round}, s.rounds = p :: o → s'.rounds = p' :: o → p'.node = p.node →
      p'.out = p.out → ∃ r' ∈ s'.roundsOf n, r'.out ≠ [] := by
    intro p p' o h1 h2 h3 h4
    rw [h1] at hr
    rcases List.mem_cons.mp hr with rfl | hr
    · exact ⟨p', mem_roundsOf.mpr ⟨by rw [h2]; exact List.mem_cons_self, h3.trans hn⟩, by rw [h4]; exact ho⟩
    · exact ⟨r, mem_roundsOf.mpr ⟨by rw [h2]; exact List.mem_cons_of_mem _ hr, hn⟩, ho⟩
  cases h with
  | calm _ _ h => exact ⟨r, mem_roundsOf.mpr ⟨by rw [h]; exact hr, hn⟩, ho⟩
  | stop _ m level hrun hl he hu h =>
    exact ⟨r, mem_roundsOf.mpr ⟨by rw [h]; exact List.mem_cons_of_mem _ hr, hn⟩, ho⟩
  | start m hrun he hu h => exact ⟨r, mem_roundsOf.mpr ⟨by rw [h]; exact List.mem_cons_of_mem _ hr, hn⟩, ho⟩
  | create _ hf he hu h => exact ⟨r, mem_roundsOf.mpr ⟨by rw [h]; exact List.mem_cons_of_mem _ hr, hn⟩, ho⟩
  | sims _ m o he h1 h2 => exact hhead h1 h2 rfl rfl
  | call _ m cb j idx sim o hs he h1 h2 => exact hhead h1 h2 rfl rfl
  | finish _ m cb o he h1 h2 =>
    -- a round that ends has called every slot, so no simulator is out
    have hnil : taken s.stack = [] := List.eq_nil_iff_forall_not_mem.mpr fun j hj => by
      have := hW ⟨m, .calling cb [], taken s.stack⟩ (by rw [h1]; exact List.mem_cons_self) cb [] rfl j hj
      cases this
    rw [h1] at hr
    rcases List.mem_cons.mp hr with rfl | hr
    · exact absurd hnil ho
    · exact ⟨r, mem_roundsOf.mpr ⟨h2 ▸ hr, hn⟩, ho⟩

theorem Follows.congr (hF : s.Follows ty i n) (hr : s'.roundsOf n = s.roundsOf n)
    (hlen : n < s'.ex.nodes.length ↔ n < s.ex.nodes.length)
    (hrun : s'.ex.runLevel n = some .running ↔ s.ex.runLevel n = some .running)
    (hcb : callbacks ty n s'.ex.log = callbacks ty n s.ex.log) : s'.Follows ty i n := by
  cases hF with
  | fresh hn hr' hc => exact .fresh (not_lt.mp (mt hlen.mp (not_lt.mpr hn))) (hr.trans hr') (hcb.trans hc)
  | out r hr' ho => exact .out r (hr ▸ hr') ho
  | idle hn hr' hc =>
    refine .idle (hlen.mpr hn) (hr.trans hr') ?_
    rw [hcb, decide_eq_decide.mpr (not_congr hrun)]
    exact hc
  | aborting hn hr' hl hc => exact .aborting (hlen.mpr hn) (hr.trans hr') (mt hrun.mp hl) (hcb ▸ hc)
  | calling hn cb idx hr' hl hd hi hi' =>
    exact .calling (hlen.mpr hn) cb idx (hr.trans hr') (hrun.trans hl) hd (fun h => hcb ▸ hi h)
      fun h => hcb ▸ hi' h

/-- A round of another node. -/
theorem roundsOf_other {p p' : Round} {o : List Round} (hp : p.node ≠ n) (hp' : p'.node ≠ n)
    (hr : s.rounds = p :: o) (hr' : s'.rounds = p' :: o) : s'.roundsOf n = s.roundsOf n := by
  rw [roundsOf_cons hr, roundsOf_cons hr', if_neg hp, if_neg hp']

theorem roundsOf_begin {p : Round} (hr : s'.rounds = p :: s.rounds) :
    s'.roundsOf n = if p.node = n then p :: s.roundsOf n else s.roundsOf n := roundsOf_cons hr

/-- A round of `n` begins: a simulator is out, or there is no other round of `n` that makes calls. -/
theorem Follows.begin (hF : s.Follows ty i n) (hO : s.Out)
    (hu : ∀ cb len idx c rest, s.stack ≠ .sims cb len idx c :: rest) {p : Round} (hr : s'.rounds = p :: s.rounds)
    (hn : p.node = n) (hp : p.out = taken s.stack) :
    s'.Follows ty i n ∨ taken s.stack = [] ∧
    ((s.ex.nodes.length ≤ n ∧ s'.roundsOf n = [p] ∧ callbacks ty n s.ex.log = []) ∨
      (n < s.ex.nodes.length ∧ s'.roundsOf n = [p] ∧
        Told n (decide (s.ex.runLevel n ≠ some .running)) (callbacks ty n s.ex.log)) ∨
      (n < s.ex.nodes.length ∧ s.ex.runLevel n ≠ some .running ∧ ⟨n, .aborting, []⟩ ∈ s.rounds)) := by
  have hrs : s'.roundsOf n = p :: s.roundsOf n := by rw [roundsOf_begin hr, if_pos hn]
  by_cases ht : taken s.stack = []
  · cases hF with
    | fresh h1 h2 h3 => exact Or.inr ⟨ht, Or.inl ⟨h1, by rw [hrs, h2], h3⟩⟩
    | out r h1 h2 => exact Or.inl (.out r (by rw [hrs]; exact List.mem_cons_of_mem _ h1) h2)
    | idle h1 h2 h3 => exact Or.inr ⟨ht, Or.inr (Or.inl ⟨h1, by rw [hrs, h2], h3⟩)⟩
    | aborting h1 h2 h3 h4 =>
      exact Or.inr ⟨ht, Or.inr (Or.inr ⟨h1, h3, (mem_roundsOf.mp (by rw [h2]; exact List.mem_cons_self)).1⟩)⟩
    | calling h1 cb idx h2 =>
      have hm : (⟨n, .calling cb idx, []⟩ : Round) ∈ s.rounds :=
        (mem_roundsOf.mp (by rw [h2]; exact List.mem_cons_self)).1
      exact absurd ht (hO.calling hu hm rfl)
  · exact Or.inl (.out p (by rw [hrs]; exact List.mem_cons_self) (hp ▸ ht))

end Rounds

/-- **A step keeps what a simulator hears in step with the run level.** -/
theorem Follows.step {ty : SimTy} {i : ℕ} {n : NodeId} (hF : s.Follows ty i n) (hr : Reachable b s)
    (h : Turn s s' l)
    (hty : s.simulatorsByType ty = some i) (hpos : 0 < s.ex.nodes.length) (hc : s.NoNestedStart l) :
    s'.Follows ty i n := by
  have hO := hr.out
  have hS := hr.slots
  have hlt : s.rounds ≠ [] ∨ s.ex.finalStopped = false ∨ (∃ m, s.ex.runLevel m = some .running) ∨
      (∃ m, s.ex.runLevel m = some .stopped) → i < s.simulators.length := by
    intro hb
    refine (hS.bound ty i hty).resolve_right fun hG => ?_
    have hno : ∀ {m lv}, s.ex.runLevel m = some lv → lv = .finalStopped := fun hm => by
      have := hG.levels _ (Exec.length_of_runLevel hm)
      rw [hm] at this
      exact Option.some.inj this
    rcases hb with hb | hb | ⟨m, hm⟩ | ⟨m, hm⟩
    · exact hb hG.rounds
    · rw [hG.stopped] at hb
      cases hb
    · cases hno hm
    · cases hno hm
  cases h with
  | calm _ he hrs =>
    exact hF.congr (by rw [roundsOf, roundsOf, hrs]) (by rw [he.length]) (he.running n) (he.callbacks ty n)
  | stop _ m level hrun hl he hu hrs =>
    by_cases hm : m = n
    · subst hm
      have hcb : callbacks ty m s'.ex.log = callbacks ty m s.ex.log := by
        simp [he, Exec.setRunLevel, Obs.callbackOf]
      have hlen : s'.ex.nodes.length = s.ex.nodes.length := by simp [he, Exec.setRunLevel]
      have hm := Exec.length_of_runLevel hrun
      rcases hF.begin hO hu hrs rfl rfl with h | ⟨ht, ⟨h1, -⟩ | ⟨h1, h2, h3⟩ | ⟨-, h1, -⟩⟩
      · exact h
      · exact absurd h1 (not_le.mpr hm)
      · refine .aborting (hlen ▸ h1) (by rw [h2, ht]) ?_ ?_
        · rw [he]
          show (s.ex.setRunLevel m level).runLevel m ≠ _
          simp [hrun, hl]
        · rw [hcb]
          simpa [hrun] using h3
      · exact absurd hrun h1
    · refine hF.congr (by rw [roundsOf_begin hrs, if_neg hm]) (by simp [he, Exec.setRunLevel]) ?_
        (by simp [he, Exec.setRunLevel, Obs.callbackOf])
      rw [he]
      show (s.ex.setRunLevel m level).runLevel n = _ ↔ _
      simp [Ne.symm hm]
  | start m hrun he hu hrs =>
    by_cases hm : m = n
    · subst hm
      have hm := Exec.length_of_runLevel hrun
      rcases hF.begin hO hu hrs rfl rfl with h | ⟨ht, ⟨h1, -⟩ | ⟨h1, h2, h3⟩ | ⟨-, -, h2⟩⟩
      · exact h
      · exact absurd h1 (not_le.mpr hm)
      · refine .calling (by rw [he]; simpa [Exec.setRunLevel] using h1) .start _ (by rw [h2, ht])
          (by simp [he, hrun]) (List.nodup_reverse.mpr List.nodup_range) (fun _ => ?_) fun h => ?_
        · have hlog : s'.ex.log = s.ex.log := by rw [he]; rfl
          show Told m true (callbacks ty m s'.ex.log)
          rw [hlog]
          simpa [hrun] using h3
        · exact absurd (by simpa using hlt (Or.inr (Or.inr (Or.inr ⟨m, hrun⟩)))) h
      · exact absurd rfl (hc m rfl hrun _ h2 rfl)
    · refine hF.congr (by rw [roundsOf_begin hrs, if_neg hm]) (by simp [he, Exec.setRunLevel]) ?_ (by rw [he]; rfl)
      simp [he, Ne.symm hm]
  | create _ hf he hu hrs =>
    have hlen : s'.ex.nodes.length = s.ex.nodes.length + 1 := by simp [he]
    by_cases hm : s.ex.nodes.length = n
    · have hno : ¬ n < s.ex.nodes.length := by rw [hm]; exact lt_irrefl _
      rcases hF.begin hO hu hrs hm rfl with h | ⟨ht, ⟨-, h2, h3⟩ | ⟨h1, -⟩ | ⟨h1, -⟩⟩
      · exact h
      · refine .calling ?_ .create _ (by rw [h2, ht, hm]) ?_ List.nodup_range (fun _ => ?_) fun h => ?_
        · rw [hlen, hm]
          exact Nat.lt_succ_self _
        · simp [he, Exec.runLevel, ← hm]
        · refine ⟨fun h => ?_, by rw [he]; exact h3⟩
          rw [hm, h] at hpos
          exact lt_irrefl _ hpos
        · exact absurd (by simpa using hlt (Or.inr (Or.inl hf))) h
      · exact absurd h1 hno
      · exact absurd h1 hno
    · have hlt' : n < s'.ex.nodes.length ↔ n < s.ex.nodes.length := by
        rw [hlen, Nat.lt_succ_iff_lt_or_eq]
        exact or_iff_left (Ne.symm hm)
      refine hF.congr (by rw [roundsOf_begin hrs, if_neg hm]) hlt' ?_ (by rw [he])
      by_cases h : n < s.ex.nodes.length
      · simp only [he, Exec.runLevel]
        rw [List.getElem?_append_left h]
      · exact iff_of_false (fun h' => h (hlt'.mp (Exec.length_of_runLevel h')))
          fun h' => h (Exec.length_of_runLevel h')
  | sims _ m o he hrs hrs' =>
    by_cases hm : m = n
    · subst hm
      have hhead : s.roundsOf m = ⟨m, .aborting, taken s.stack⟩ :: o.filter (fun r => r.node = m) := by
        rw [roundsOf_cons hrs, if_pos rfl]
      cases hF with
      | fresh _ h2 _ | idle _ h2 _ | calling _ _ _ h2 => rw [hhead] at h2; cases h2
      | out r h1 h2 =>
        obtain ⟨r', h3, h4⟩ := Turn.keeps_out (.sims l m o he hrs hrs') hr.waits h1 h2
        exact .out r' h3 h4
      | aborting h1 h2 h3 h4 =>
        rw [hhead] at h2
        injection h2 with h5 h6
        refine .calling (by rw [he]; exact h1) .stop _
          (by rw [roundsOf_cons hrs', if_pos rfl, h6, (Round.mk.inj h5).2.2]) ?_
          (List.nodup_reverse.mpr List.nodup_range) (fun _ => by rw [he]; exact h4) fun h => ?_
        · rw [he]
          simpa using h3
        · exact absurd (by simpa using hlt (Or.inl (by rw [hrs]; simp))) h
    · exact hF.congr (roundsOf_other hm hm hrs hrs') (by rw [he]) (by rw [he]) (by rw [he])
  | call _ m cb j idx sim o hs he hrs hrs' =>
    by_cases hm : m = n
    · subst hm
      have hhead : s.roundsOf m = ⟨m, .calling cb (j :: idx), taken s.stack⟩ :: o.filter
          (fun r => r.node = m) := by
        rw [roundsOf_cons hrs, if_pos rfl]
      cases hF with
      | fresh _ h2 _ | idle _ h2 _ | aborting _ h2 => rw [hhead] at h2; cases h2
      | out r h1 h2 =>
        obtain ⟨r', h3, h4⟩ := Turn.keeps_out (.call l m cb j idx sim o hs he hrs hrs') hr.waits h1 h2
        exact .out r' h3 h4
      | calling h1 cb' idx' h2 h3 h4 h5 h6 =>
        rw [hhead] at h2
        injection h2 with h7 h8
        obtain ⟨-, h9, h10⟩ := Round.mk.inj h7
        cases h9
        obtain ⟨hj, hd⟩ := List.nodup_cons.mp h4
        have hsim : sim = ty ↔ i = j := by
          refine ⟨?_, ?_⟩
          · rintro rfl
            have := hS.slot j sim hs
            rw [hty] at this
            exact Option.some.inj this
          · rintro rfl
            exact hS.inj _ _ i (hS.slot i sim hs) hty
        refine .calling (by rw [he]; exact h1) cb idx (by rw [roundsOf_cons hrs', if_pos rfl, h8, h10])
          (by rw [he]; exact h3) hd (fun h => ?_) fun h => ?_
        · have hne : i ≠ j := fun h0 => hj (h0 ▸ h)
          rw [he]
          simpa [Obs.callbackOf, mt hsim.mp hne] using h5 (List.mem_cons_of_mem _ h)
        · by_cases hij : i = j
          · rw [he]
            simpa [Obs.callbackOf, hsim.mpr hij] using (h5 (by rw [hij]; exact List.mem_cons_self)).told
          · rw [he]
            simpa [Obs.callbackOf, mt hsim.mp hij] using h6 fun h0 => h ((List.mem_cons.mp h0).resolve_left hij)
    · exact hF.congr (roundsOf_other hm hm hrs hrs') (by rw [he]; rfl) (by rw [he]; rfl)
        (by simp [he, Obs.callbackOf, hm])
  | finish _ m cb o he hrs hrs' =>
    by_cases hm : m = n
    · subst hm
      have hhead : s.roundsOf m = ⟨m, .calling cb [], taken s.stack⟩ :: o.filter (fun r => r.node = m) := by
        rw [roundsOf_cons hrs, if_pos rfl]
      cases hF with
      | fresh _ h2 _ | idle _ h2 _ | aborting _ h2 => rw [hhead] at h2; cases h2
      | out r h1 h2 =>
        obtain ⟨r', h3, h4⟩ := Turn.keeps_out (.finish l m cb o he hrs hrs') hr.waits h1 h2
        exact .out r' h3 h4
      | calling h1 cb' idx' h2 h3 h4 h5 h6 =>
        rw [hhead] at h2
        injection h2 with h7 h8
        obtain ⟨-, h9, h10⟩ := Round.mk.inj h7
        cases h9
        refine .idle (by rw [he]; exact h1) (by rw [roundsOf, hrs', h8]) ?_
        have hdec : decide (s'.ex.runLevel m ≠ some .running) = decide (cb = .stop) := by
          rw [he, decide_eq_decide]
          exact h3.not.trans not_not
        rw [hdec, he]
        exact h6 (by simp)
    · refine hF.congr ?_ (by rw [he]) (by rw [he]) (by rw [he])
      rw [roundsOf_cons hrs, if_neg hm, roundsOf, hrs']

/-! ## From the registration on -/

omit [KeyedQueue Q Loc Instant] in
theorem Turn.length_le (h : Turn s s' l) : s.ex.nodes.length ≤ s'.ex.nodes.length := by
  cases h with
  | calm _ he => exact he.length.ge
  | stop _ n level hrun hl he | start n hrun he => simp [he, Exec.setRunLevel]
  | create _ hf he | call _ n cb i idx sim o hs he => simp [he]
  | sims _ n o he | finish _ n cb o he => rw [he]

omit [KeyedQueue Q Loc Instant] in
/-- A creation in progress was so before, or it is of the node that the step adds. -/
theorem Turn.creating (h : Turn s s' l) {r : Round} (hr : r ∈ s'.rounds) {idx : List ℕ}
    (hp : r.phase = .calling .create idx) :
    (∃ r₀ ∈ s.rounds, r₀.node = r.node ∧ ∃ idx₀, r₀.phase = .calling .create idx₀) ∨
    r.node = s.ex.nodes.length ∧ s'.ex.nodes.length = s.ex.nodes.length + 1 := by
  have hold : r ∈ s.rounds → ∃ r₀ ∈ s.rounds, r₀.node = r.node ∧ ∃ idx₀, r₀.phase = .calling .create idx₀ :=
    fun h => ⟨r, h, rfl, idx, hp⟩
  cases h with
  | calm _ _ h1 => exact Or.inl (hold (h1 ▸ hr))
  | stop _ n level hrun hl he hu h1 | start n hrun he hu h1 =>
    rw [h1] at hr
    rcases List.mem_cons.mp hr with rfl | hr
    · cases hp
    · exact Or.inl (hold hr)
  | create _ hf he hu h1 =>
    rw [h1] at hr
    rcases List.mem_cons.mp hr with rfl | hr
    · exact Or.inr ⟨rfl, by simp [he]⟩
    · exact Or.inl (hold hr)
  | sims _ n o he h1 h2 =>
    rw [h2] at hr
    rcases List.mem_cons.mp hr with rfl | hr
    · cases hp
    · exact Or.inl (hold (h1 ▸ List.mem_cons_of_mem _ hr))
  | call _ n cb i idx' sim o hs he h1 h2 =>
    rw [h2] at hr
    rcases List.mem_cons.mp hr with rfl | hr
    · cases hp
      exact Or.inl ⟨⟨n, .calling .create (i :: idx), taken s.stack⟩,
        by rw [h1]; exact List.mem_cons_self, rfl, _, rfl⟩
    · exact Or.inl (hold (h1 ▸ List.mem_cons_of_mem _ hr))
  | finish _ n cb o he h1 h2 =>
    rw [h2] at hr
    exact Or.inl (hold (h1 ▸ List.mem_cons_of_mem _ hr))

theorem Reachable.nodes_pos (hr : Reachable b s) : 0 < s.ex.nodes.length :=
  hr.invariant (I := fun s => 0 < s.ex.nodes.length) (by simp [install, Exec.new]) fun _ _ _ hB hp h =>
    hp.trans_le (h.turn hB).length_le

/-- There is one node, and it was never stopped. -/
def Untouched (s : SimCx V Q) : Prop := s.ex.nodes.length = 1 ∧ ∀ n, .stop n ∉ s.ex.log

/-- Then no round has ever begun. -/
theorem Reachable.untouched (hr : Reachable b s) (hU : s.Untouched) :
    s.rounds = [] ∧ s.ex.runLevel initNode = some .running ∧ ∀ ty n, callbacks ty n s.ex.log = [] := by
  refine hr.induct (P := fun s => s.Untouched → s.rounds = [] ∧ s.ex.runLevel initNode = some .running ∧
    ∀ ty n, callbacks ty n s.ex.log = []) (fun _ => ⟨rfl, rfl, fun _ _ => rfl⟩) (fun s l s' hr hI hst hU' => ?_) hU
  have hB : s.Base := Reachable.base hr
  obtain ⟨hlen, hlog⟩ := hU'
  have hone : ∀ {n : NodeId} {lv : NodeRunLevel}, s.ex.nodes.length = 1 → s.ex.runLevel n = some lv →
      n = initNode := by
    intro n lv h1 h2
    have := Exec.length_of_runLevel h2
    rw [h1] at this
    exact Nat.lt_one_iff.mp this
  cases (step_next hB hst).turn hB with
  | calm _ he hrs =>
    obtain ⟨h1, h2, h3⟩ := hI ⟨he.length ▸ hlen, fun n hn => hlog n ((he.stops n).mpr hn)⟩
    exact ⟨hrs.trans h1, (he.running _).mpr h2, fun ty n => (he.callbacks ty n).trans (h3 ty n)⟩
  | stop _ n level hrun hl he hu hrs => exact absurd (by rw [he]; simp) (hlog n)
  | start n hrun he hu hrs =>
    have hlen' : s.ex.nodes.length = 1 := by simpa [he, Exec.setRunLevel] using hlen
    obtain ⟨-, h2, -⟩ := hI ⟨hlen', fun m hm => hlog m (by rw [he]; exact hm)⟩
    rw [hone hlen' hrun, h2] at hrun
    cases hrun
  | create _ hf he hu hrs =>
    -- the first node is always there
    have hpos := Reachable.nodes_pos hr
    have : s.ex.nodes.length + 1 = 1 := by simpa [he] using hlen
    omega
  | sims _ n o he hrs | finish _ n cb o he hrs =>
    obtain ⟨h1, -, -⟩ := hI ⟨by rw [← he]; exact hlen, by rw [← he]; exact hlog⟩
    rw [h1] at hrs
    cases hrs
  | call _ n cb j idx sim o hs he hrs =>
    obtain ⟨h1, -, -⟩ := hI ⟨by simpa [he] using hlen, fun m hm => hlog m (by rw [he]; simp [hm])⟩
    rw [h1] at hrs
    cases hrs

theorem step_addSimulator {ty : SimTy} (h : s.step (.user (.addSimulator ty)) = .ok s') :
    s.ex.nodes.length = 1 ∧ s'.ex = s.ex ∧ s'.rounds = s.rounds ∧
    s'.simulatorsByType ty = some s.simulators.length := by
  simp only [step] at h
  split at h
  · cases h
  · split_ifs at h
    obtain ⟨-, h⟩ := borrow_bind.mp h
    split_ifs at h with hn
    cases h
    exact ⟨hn.1, rfl, rfl, by simp⟩

/-- A simulator keeps its slot. -/
theorem Next.byType (h : Next s l s') {ty : SimTy} {i : ℕ} (hty : s.simulatorsByType ty = some i) :
    s'.simulatorsByType ty = some i := by
  cases h with
  | addSimulator ty' hu hc hn hf hb =>
    have hne : ty ≠ ty' := by
      rintro rfl
      rw [hb] at hty
      cases hty
    show Function.update s.simulatorsByType ty' _ ty = _
    rw [Function.update_of_ne hne]
    exact hty
  | _ => exact hty

/-- **Simulator callbacks track the run level, unless a stop is overtaken.**  In a run from the registration
of a simulator before the first stop, whose steps start no node while its tasks are being aborted: when no
stop, start or creation of `n` is in progress, the simulator was told of the creation, if there was one, and
then of stops and starts in turn, and the last was a stop if and only if the node is not running. -/
theorem callbacks_track_run_level (hr : Reachable b s) (hfirst : ∀ n, .stop n ∉ s.ex.log) {ty : SimTy}
    (hadd : s.step (.user (.addSimulator ty)) = .ok s') {ls : List (Label V)} {m : SimCx V Q}
    (hrun : Machine.run step s' ls = .ok m) (hc : Machine.Along step NoNestedStart s' ls) {n : NodeId}
    (hn : n < m.ex.nodes.length) (hidle : ∀ r ∈ m.rounds, r.node ≠ n) :
    ∃ h b, callbacks ty n m.ex.log = (if n = initNode then [] else [.create]) ++ h ∧ Alternating b h ∧
      (h.getLast? = some .stop ↔ m.ex.runLevel n ≠ some .running) := by
  have hr' : Reachable b s' := hr.tail hadd
  obtain ⟨hlen, hex, hrs, hty⟩ := step_addSimulator hadd
  obtain ⟨h1, h2, h3⟩ := hr.untouched ⟨hlen, hfirst⟩
  have hstart : s'.Follows ty s.simulators.length n := by
    by_cases h0 : n = initNode
    · subst h0
      refine .idle (by rw [hex, hlen]; exact Nat.one_pos) (by rw [roundsOf, hrs, h1]; rfl) ?_
      rw [hex, h2, h3]
      exact ⟨[], rfl, .nil⟩
    · refine .fresh ?_ (by rw [roundsOf, hrs, h1]; rfl) (by rw [hex, h3])
      rw [hex, hlen]
      exact Nat.one_le_iff_ne_zero.mpr h0
  have key := hc.inv (I := fun m => Reachable b m ∧ m.simulatorsByType ty = some s.simulators.length ∧
    m.Follows ty s.simulators.length n) ?_ hrun ⟨hr', hty, hstart⟩
  · obtain ⟨-, -, hF⟩ := key
    have hnil : m.roundsOf n = [] := List.filter_eq_nil_iff.mpr fun r hr => by simpa using hidle r hr
    cases hF with
    | fresh h => exact absurd hn (not_lt.mpr h)
    | out r h => rw [hnil] at h; cases h
    | idle _ _ h =>
      obtain ⟨h, h4, h5⟩ := h
      refine ⟨h, _, h4, h5, ?_⟩
      have := h5.last
      rw [decide_eq_decide] at this
      exact this.symm
    | aborting _ h | calling _ _ _ h => rw [hnil] at h; cases h
  · rintro k l k' ⟨hrk, htk, hF⟩ hl hst
    have hnext := step_next hrk.base hst
    exact ⟨hrk.tail hst, hnext.byType htk, hF.step hrk (hnext.turn hrk.base) htk hrk.nodes_pos hl⟩

/-- A second node with a task is made and stopped. -/
def stopNodeRun : List (Label ℕ) :=
  [.user .createNode, .run [], .user (.done none), .run [], .user (.spawn 1), .user (.stop 1 [1]), .run [],
    .user (.done none), .run [], .run [], .user (.done none), .run []]

theorem callbacks_track_run_level_stopped : ∃ s m :
    ArraySim, (install epoch).step (.user (.addSimulator 0)) = .ok s ∧
    Machine.run step s stopNodeRun = .ok m ∧ ∃ h b, callbacks 0 1 m.ex.log = [.create] ++ h ∧ Alternating b h ∧
      (h.getLast? = some .stop ↔ m.ex.runLevel 1 ≠ some .running) := by
  obtain ⟨m, hm, hq⟩ : ∃ m : ArraySim, Machine.run step (install epoch)
      ([.user (.addSimulator 0)] ++ stopNodeRun) = .ok m ∧
      (m.ex.nodes.length, m.rounds) = (2, []) := Machine.exists_of_run rfl
  obtain ⟨s, hs, hrun⟩ := Machine.run_append.mp hm
  have hadd := Machine.run_single.mp hs
  refine ⟨s, m, hadd, hrun, callbacks_track_run_level (b := epoch) (Machine.Steps.refl _)
    (fun n h => by cases h) hadd hrun ?_
    (by rw [(Prod.mk.inj hq).1]; exact Nat.one_lt_two) (by simp [(Prod.mk.inj hq).2])⟩
  refine Machine.along_iff.mpr ?_
  rintro ls₁ l ls₂ k hls - n rfl
  have : Label.user (Op.start n) ∈ stopNodeRun := by rw [hls]; simp
  simp [stopNodeRun] at this

/-- A second node with a task is made and stopped, and the destructor of the task starts the node. -/
def overtakeRun : List (Label ℕ) :=
  [.user .createNode, .run [], .user (.done none), .run [], .user (.spawn 1), .user (.stop 1 [1]), .run [],
    .user (.start 1), .run [], .user (.done none), .run [], .user (.done none), .run [], .run [],
    .user (.done none), .run []]

/-- The simulator hears of the start before the stop, which it hears of last, of a node that runs. -/
theorem start_overtakes_stop : ∃ s m : ArraySim, (install epoch).step (.user (.addSimulator 0)) = .ok s ∧
    Machine.run step s overtakeRun = .ok m ∧ 1 < m.ex.nodes.length ∧ m.rounds = [] ∧
    callbacks 0 1 m.ex.log = [.create, .start, .stop] ∧ m.ex.runLevel 1 = some .running ∧
    ¬ ∃ h b, callbacks 0 1 m.ex.log = [.create] ++ h ∧ Alternating b h ∧
      (h.getLast? = some .stop ↔ m.ex.runLevel 1 ≠ some .running) := by
  obtain ⟨m, hm, hq⟩ : ∃ m : ArraySim, Machine.run step (install epoch)
      ([.user (.addSimulator 0)] ++ overtakeRun) = .ok m ∧
      (m.ex.nodes.length, m.rounds, callbacks 0 1 m.ex.log, m.ex.runLevel 1) =
        (2, [], [.create, .start, .stop], some .running) := Machine.exists_of_run rfl
  obtain ⟨s, hs, hrun⟩ := Machine.run_append.mp hm
  simp only [Prod.mk.injEq] at hq
  obtain ⟨hlen, hidle, hcb, hlv⟩ := hq
  refine ⟨s, m, Machine.run_single.mp hs, hrun, by rw [hlen]; exact Nat.one_lt_two, hidle, hcb, hlv, ?_⟩
  rintro ⟨h, b, h1, -, h2⟩
  rw [hcb] at h1
  obtain rfl : h = [.start, .stop] := by simpa using h1.symm
  exact h2.mp rfl hlv

end SimCx

end Refault
