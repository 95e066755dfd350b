import Mathlib.Data.List.Chain
import Refault.Borrow
import Refault.Shutdown

/-!
# Refault.Rounds — stops, starts and creations in progress

Every `stop_node`, `start_node` and `create_node` that is in progress is a `Round` on the stack: its node, how
far it is, and the slots whose simulators were out when it began.  A step changes the first round only
(`Next.round`).  A simulator that is out below a round stays out as long as the round lasts, so the round's
calls never get past its slot.
-/

namespace Refault

variable {V Q : Type}

/-- The slot whose simulator a frame has taken out. -/
def Frame.slot : Frame V → Option ℕ
  | .callback i _ | .withSim i _ => some i
  | _ => none

/-- The slots whose simulators are out. -/
def taken (stack : List (Frame V)) : List ℕ := stack.filterMap Frame.slot

/-- How far a round is: the tasks are being aborted, or the callbacks are still to be made in these slots. -/
inductive Phase
  | aborting
  | calling (cb : Callback) (idx : List ℕ)
deriving DecidableEq

def Frame.phase : Frame V → Option Phase
  | .stopNode _ _ => some .aborting
  | .sims cb _ idx _ => some (.calling cb idx)
  | _ => none

/-- A stop, start or creation of `node` in progress; `out` are the slots that were empty when it began. -/
structure Round where
  node : NodeId
  phase : Phase
  out : List ℕ
deriving DecidableEq

/-- The rounds on a stack whose top runs on `cur`. -/
def rounds : NodeId → List (Frame V) → List Round
  | _, [] => []
  | cur, f :: rest => (f.phase.map fun p => ⟨cur, p, taken rest⟩).toList ++ rounds (f.below cur) rest

section Stack

variable {cur : NodeId} {f : Frame V} {rest : List (Frame V)}

@[simp] theorem taken_nil : taken ([] : List (Frame V)) = [] := rfl

@[simp] theorem taken_cons : taken (f :: rest) = f.slot.toList ++ taken rest := by
  unfold taken
  rw [List.filterMap_cons]
  cases f.slot <;> rfl

@[simp] theorem rounds_cons : rounds cur (f :: rest) =
    (f.phase.map fun p => (⟨cur, p, taken rest⟩ : Round)).toList ++ rounds (f.below cur) rest := rfl

@[simp] theorem rounds_nil : rounds cur ([] : List (Frame V)) = [] := rfl

end Stack

/-! ## Callbacks in the log -/

def Obs.callbackOf (ty : SimTy) (n : NodeId) : Obs V → Option Callback
  | .callback sim cb m => if sim = ty ∧ m = n then some cb else none
  | _ => none

/-- The callbacks that the simulator `ty` has received for `n`. -/
def callbacks (ty : SimTy) (n : NodeId) (log : List (Obs V)) : List Callback := log.filterMap (Obs.callbackOf ty n)

@[simp] theorem callbacks_append (ty : SimTy) (n : NodeId) (log log' : List (Obs V)) :
    callbacks ty n (log ++ log') = callbacks ty n log ++ callbacks ty n log' := List.filterMap_append

@[simp] theorem callbacks_nil (ty : SimTy) (n : NodeId) : callbacks ty n ([] : List (Obs V)) = [] := rfl

@[simp] theorem callbacks_cons (ty : SimTy) (n : NodeId) (o : Obs V) (log : List (Obs V)) :
    callbacks ty n (o :: log) = (o.callbackOf ty n).toList ++ callbacks ty n log := by
  unfold callbacks
  rw [List.filterMap_cons]
  cases o.callbackOf ty n <;> rfl

/-- The entries of stops and callbacks. -/
def Obs.ofRound : Obs V → Bool
  | .stop _ | .callback .. => true
  | _ => false

namespace Exec

/-- Nothing that a round is about changes. -/
structure Calm (e e' : Exec V) : Prop where
  running : ∀ n, e'.runLevel n = some .running ↔ e.runLevel n = some .running
  length : e'.nodes.length = e.nodes.length
  callbacks : ∀ ty n, Refault.callbacks ty n e'.log = Refault.callbacks ty n e.log
  stops : ∀ n, .stop n ∈ e'.log ↔ .stop n ∈ e.log

variable {e e' : Exec V}

theorem Calm.refl (e : Exec V) : e.Calm e := ⟨fun _ => Iff.rfl, rfl, fun _ _ => rfl, fun _ => Iff.rfl⟩

/-- What is added to the log is no callback and no stop. -/
theorem Calm.of_log (os : List (Obs V)) (hrun : ∀ n, e'.runLevel n = e.runLevel n)
    (hlen : e'.nodes.length = e.nodes.length) (hlog : e'.log = e.log ++ os) (hos : ∀ o ∈ os, o.ofRound = false) :
    e.Calm e' := by
  refine ⟨fun n => by rw [hrun], hlen, fun ty n => ?_, fun n => ?_⟩
  · have hnil : Refault.callbacks ty n os = [] := by
      refine List.filterMap_eq_nil_iff.mpr fun o ho => ?_
      have := hos o ho
      cases o <;> first | rfl | cases this
    rw [hlog, callbacks_append, hnil, List.append_nil]
  · have hno : .stop n ∉ os := fun h => by cases hos _ h
    rw [hlog, List.mem_append]
    exact or_iff_left hno

theorem Quiet.calm (h : Quiet e e') : e.Calm e' := by
  cases h with
  | abortPolled id hs hp =>
    exact .of_log [.abort id] (fun n => runLevel_abortAt n id) (by simp) (by simp) (by simp [Obs.ofRound])
  | wakeIdle id hs hend => exact .of_log [.wake id] (fun _ => rfl) rfl rfl (by simp [Obs.ofRound])
  | wake id hs => exact .of_log [.wake id] (fun _ => rfl) rfl rfl (by simp [Obs.ofRound])
  | abortIdle id hs => exact .of_log [.abort id] (fun _ => rfl) rfl rfl (by simp [Obs.ofRound])
  | newId id hid hlt => exact .of_log [] (fun _ => rfl) rfl (by simp) (by simp)
  | joined id r hr => exact .of_log [.joined id r] (fun _ => rfl) rfl rfl (by simp [Obs.ofRound])

/-- The end of a poll adds no node. -/
theorem Act.length_pollEnd (h : Act e e') (hr : e.running ≠ none) (hr' : e'.running = none) :
    e'.nodes.length = e.nodes.length := by
  cases h with
  | poll j q hq hs hr0 hf => exact absurd hr0 hr
  | abortPolled j hs hp => exact absurd (by simpa using hr') hr
  | abort j hs hp => exact absurd (by simpa [dropUnsent] using hr') hr
  | ready j v hr0 hs => exact length_unlink ..
  | pending | pendingAborted | readyQueued => rfl
  | _ => exact absurd hr' hr

theorem calm_insertTask (node : NodeId) (id : Id) :
    e.Calm ((((e.insertTask node id).note (.wake id)).setState id .ready).pushReady id) :=
  .of_log [.spawn id node, .wake id] (fun n => runLevel_insertTask n node id) (List.length_modify ..)
    (List.append_assoc e.log [_] [_]) (by simp [Obs.ofRound])

theorem calm_abort (id : Id) : e.Calm (((e.note (.abort id)).abortAt id).dropUnsent id false) :=
  .of_log [.abort id, .drop id false] (fun n => runLevel_abortAt n id) (by simp [dropUnsent])
    (by simp [dropUnsent]) (by simp [Obs.ofRound])

theorem calm_finalize {n : NodeId} (hn : e.runLevel n ≠ some .running) :
    e.Calm (e.setRunLevel n .finalStopped) := by
  refine ⟨fun m => ?_, List.length_modify .., fun _ _ => rfl, fun _ => Iff.rfl⟩
  rw [runLevel_setRunLevel]
  by_cases h : m = n
  · subst h
    simpa using hn
  · rw [if_neg h]

end Exec

namespace SimCx

/-- The rounds in progress. -/
def rounds (s : SimCx V Q) : List Round := Refault.rounds s.currentNode s.stack

/-- What a step does to the rounds. -/
inductive Turn (s s' : SimCx V Q) : Label V → Prop
  | calm (l : Label V) (h : s.ex.Calm s'.ex) (hr : s'.rounds = s.rounds) : Turn s s' l
  | stop (l : Label V) (n : NodeId) (level : NodeRunLevel) (hrun : s.ex.runLevel n = some .running)
      (hl : level ≠ .running) (he : s'.ex = (s.ex.setRunLevel n level).note (.stop n)) (hu : ∀ cb len idx c rest,
        s.stack ≠ .sims cb len idx c :: rest) (hr : s'.rounds = ⟨n, .aborting, taken s.stack⟩ :: s.rounds) :
          Turn s s' l
  | start (n : NodeId) (hrun : s.ex.runLevel n = some .stopped) (he : s'.ex = s.ex.setRunLevel n .running)
      (hu : ∀ cb len idx c rest, s.stack ≠ .sims cb len idx c :: rest)
      (hr : s'.rounds = ⟨n, .calling .start (List.range s.simulators.length).reverse, taken s.stack⟩ :: s.rounds) :
      Turn s s' (.user (.start n))
  | create (l : Label V) (hf : s.ex.finalStopped = false)
      (he : s'.ex = { s.ex with nodes := s.ex.nodes ++ [⟨.running, ∅⟩] })
      (hu : ∀ cb len idx c rest, s.stack ≠ .sims cb len idx c :: rest)
      (hr : s'.rounds = ⟨s.ex.nodes.length, .calling .create (List.range s.simulators.length),
        taken s.stack⟩ :: s.rounds) :
      Turn s s' l
  | sims (l : Label V) (n : NodeId) (o : List Round) (he : s'.ex = s.ex)
      (hr : s.rounds = ⟨n, .aborting, taken s.stack⟩ :: o)
      (hr' : s'.rounds = ⟨n, .calling .stop (List.range s.simulators.length).reverse, taken s.stack⟩ :: o) :
        Turn s s' l
  | call (l : Label V) (n : NodeId) (cb : Callback) (i : ℕ) (idx : List ℕ) (sim : SimTy) (o : List Round)
      (hs : s.simulators[i]? = some (some sim)) (he : s'.ex = s.ex.note (.callback sim cb n))
      (hr : s.rounds = ⟨n, .calling cb (i :: idx), taken s.stack⟩ :: o)
      (hr' : s'.rounds = ⟨n, .calling cb idx, taken s.stack⟩ :: o) : Turn s s' l
  | finish (l : Label V) (n : NodeId) (cb : Callback) (o : List Round) (he : s'.ex = s.ex)
      (hr : s.rounds = ⟨n, .calling cb [], taken s.stack⟩ :: o) (hr' : s'.rounds = o) : Turn s s' l

variable {s s' : SimCx V Q} {l : Label V}

theorem InUser.not_sims (hu : s.InUser) (cb : Callback) (len : ℕ) (idx : List ℕ) (c : NodeId)
    (rest : List (Frame V)) : s.stack ≠ .sims cb len idx c :: rest := by
  rintro hk
  obtain ⟨f, rest', hk', hf⟩ := hu
  rw [hk] at hk'
  cases hk'
  cases hf

variable [KeyedQueue Q Loc Instant]

/-- **A step changes the first round only.** -/
theorem Next.turn (h : Next s l s') (hB : s.Base) : Turn s s' l := by
  have hcalm : ∀ (os : List (Obs V)) {e : Exec V}, (∀ n, e.runLevel n = s.ex.runLevel n) →
      e.nodes.length = s.ex.nodes.length → e.log = s.ex.log ++ os → (∀ o ∈ os, o.ofRound = false) → s.ex.Calm e :=
    fun os _ h1 h2 h3 h4 => .of_log os h1 h2 h3 h4
  cases h with
  | exec op e hu hq => exact .calm _ hq.calm rfl
  | spawn node id hu hc hrun hid hlt => exact .calm _ (Exec.calm_insertTask node id) rfl
  | abort id hu hc hl hp => exact .calm _ (Exec.calm_abort id) rfl
  | stop node order nd hu hc hn hrun hnd ho =>
    exact .stop _ node .stopped (by simp [Exec.runLevel, hn, hrun]) (by decide) rfl hu.not_sims rfl
  | start node hu hc hrun => exact .start node hrun rfl hu.not_sims rfl
  | createNode hu hc hf => exact .create _ hf rfl hu.not_sims rfl
  | stopSimulation hu hc => exact .calm _ ⟨fun _ => Iff.rfl, rfl, fun _ _ => rfl, fun _ => Iff.rfl⟩ rfl
  | withSimulator ty i sim hu hc hs => exact .calm _ (.refl _) rfl
  | doneInit r rest id hk hc hrun hid hlt =>
    exact .calm _ (Exec.calm_insertTask _ id) (by simp [SimCx.rounds, hk, Frame.phase, Frame.below])
  | doneWaker r rest hk | doneDropSim r rest hk | stopAllDone order rest hk | wakeDone order rest hk hs =>
    exact .calm _ (.refl _) (by simp [SimCx.rounds, hk, Frame.phase, Frame.below])
  | rootReady v caller rest id hk hc hr hroot hret =>
    refine .calm _ (hcalm [.rootReady v] (fun _ => rfl) rfl rfl (by simp [Obs.ofRound])) ?_
    simp [SimCx.rounds, hk, Frame.phase, Frame.below]
  | pollKept caller rest id hk hc hr hl =>
    refine .calm _ (hcalm [.ret id none] (fun _ => rfl) rfl rfl (by simp [Obs.ofRound])) ?_
    simp [SimCx.rounds, hk, Frame.phase, Frame.below]
  | pollDropped l caller rest id r e hk hc hr hd he ha hr' hf =>
    obtain ⟨t, he⟩ := he
    have hlen := ha.length_pollEnd (by rw [hr]; exact Option.some_ne_none _) hr'
    refine .calm _ (hcalm [.ret id r, .drop id true]
      (ha.runLevel_pollEnd (by rw [hr]; exact Option.some_ne_none _) hr') hlen (pollEnd_dropped hB.exec hr he)
      (by simp [Obs.ofRound])) ?_
    rcases hk with ⟨hk, -⟩ | ⟨v, order, hk, -⟩ <;> simp [SimCx.rounds, hk, Frame.phase, Frame.below]
  | doneDiscard r id post caller rest hk =>
    exact .calm _ (.refl _) (by simp [SimCx.rounds, hk, Frame.phase, Frame.below])
  | putBack r i sim rest hk hc hs =>
    refine .calm _ (.refl _) ?_
    rcases hk with hk | hk <;> simp [SimCx.rounds, hk, Frame.phase, Frame.below]
  | exhausted order rest hk hc hq hp =>
    refine .calm _ (hcalm [.exhausted] (fun _ => rfl) rfl rfl (by simp [Obs.ofRound])) ?_
    simp [SimCx.rounds, hk, Frame.phase, Frame.below]
  | advance order rest loc next time hk hc hq hp ht =>
    refine .calm _ (hcalm [.exhausted] (fun _ => rfl) rfl rfl (by simp [Obs.ofRound])) ?_
    simp [SimCx.rounds, hk, Frame.phase, Frame.below]
  | clear order rest id q st hk hc hf hq hs =>
    exact .calm _ (hcalm [] (fun n => Exec.runLevel_unlink n id) (Exec.length_unlink ..) (by simp [Exec.clearHead])
      (by simp)) rfl
  | poll order rest id q hk hc hf hq hs hr =>
    refine .calm _ (hcalm [.poll id] (fun _ => rfl) rfl rfl (by simp [Obs.ofRound])) ?_
    simp [SimCx.rounds, hk, Frame.phase, Frame.below]
  | wakeTask order rest loc t id q e hk hp hs he => exact .calm _ (Exec.wakeByRef_quiet he).calm rfl
  | wakeCustom order rest loc t n q hk hp hs =>
    exact .calm _ (.refl _) (by simp [SimCx.rounds, hk, Frame.phase, Frame.below])
  | stopNext order id ids caller rest e hk hc hl =>
    refine .calm _ ?_ (by simp [SimCx.rounds, hk, Frame.phase, Frame.below])
    rcases hl with ⟨hl, rfl⟩ | ⟨hl, hp, rfl⟩
    · exact (Exec.Quiet.abortIdle id hl).calm
    · exact (Exec.Quiet.abortPolled id hl hp).calm
  | stopDrop order id ids caller rest hk hc hl hp =>
    exact .calm _ (Exec.calm_abort id) (by simp [SimCx.rounds, hk, Frame.phase, Frame.below, Frame.slot])
  | stopSims order caller rest hk hc =>
    refine .sims _ s.currentNode (Refault.rounds caller rest) rfl ?_ ?_ <;>
      simp [SimCx.rounds, hk, Frame.phase, Frame.below, Frame.slot]
  | simsNext order cb len i idx caller rest sim hk hc hs =>
    refine .call _ s.currentNode cb i idx sim (Refault.rounds caller rest) hs rfl ?_ ?_ <;>
      simp [SimCx.rounds, hk, Frame.phase, Frame.below, Frame.slot]
  | simsDone order cb len caller rest hk hc hlen =>
    refine .finish _ s.currentNode cb (Refault.rounds caller rest) rfl ?_ rfl
    simp [SimCx.rounds, hk, Frame.phase, Frame.below, Frame.slot]
  | stopAllRun order node nodes rest nd hk hc hn hrun hnd ho =>
    refine .stop _ node .finalStopped (by simp [Exec.runLevel, hn, hrun]) (by decide) rfl (by rw [hk]; simp) ?_
    simp [SimCx.rounds, hk, Frame.phase, Frame.below, Frame.slot]
  | stopAllSkip order node nodes rest nd hk hc hn hrun =>
    refine .calm _ (Exec.calm_finalize (by simpa [Exec.runLevel, hn] using hrun)) ?_
    simp [SimCx.rounds, hk, Frame.phase, Frame.below]
  | destroy order rest hk hc hq =>
    refine .calm _ ⟨fun _ => Iff.rfl, rfl, fun _ _ => rfl, fun _ => Iff.rfl⟩ ?_
    simp [SimCx.rounds, hk, Frame.phase, Frame.below]
  | dropSim order time rest sim hk hc hs =>
    exact .calm _ (.refl _) (by simp [SimCx.rounds, hk, Frame.phase, Frame.below])
  | taken order time rest hk hc hs =>
    exact .calm _ (.refl _) (by simp [SimCx.rounds, hk, Frame.phase, Frame.below])
  | _ => exact .calm _ (.refl _) rfl

end SimCx

/-! ## Simulators that are out -/

/-- Above the calls of a round there is the callback that it makes. -/
def Above (f g : Frame V) : Prop := (∃ cb len idx c, g = .sims cb len idx c) → f.slot.isSome

theorem above_of_not_sims {f g : Frame V} (h : ∀ cb len idx c, g ≠ .sims cb len idx c) : Above f g :=
  fun ⟨cb, len, idx, c, hg⟩ => absurd hg (h cb len idx c)

namespace SimCx

variable {s s' : SimCx V Q} {l : Label V}

structure Out (s : SimCx V Q) : Prop where
  nodup : (taken s.stack).Nodup
  empty : ∀ i ∈ taken s.stack, s.simulators[i]? = some none
  chain : s.stack.IsChain Above

/-- A frame that takes nothing is put on the stack. -/
theorem Out.push (hO : s.Out) (hn : ∀ cb len idx c rest, s.stack ≠ .sims cb len idx c :: rest) {f : Frame V}
    (hf : f.slot = none) (hk : s'.stack = f :: s.stack) (hs : s'.simulators = s.simulators) : s'.Out := by
  refine ⟨by simpa [hk, hf] using hO.nodup, by simpa [hk, hf, hs] using hO.empty, ?_⟩
  rw [hk]
  cases hg : s.stack with
  | nil => exact List.isChain_singleton _
  | cons g rest =>
    rw [List.isChain_cons_cons]
    refine ⟨above_of_not_sims ?_, hg ▸ hO.chain⟩
    rintro cb len idx c rfl
    exact hn cb len idx c rest hg

/-- The top frame, which takes nothing, goes or is replaced by such a one. -/
theorem Out.top (hO : s.Out) {f : Frame V} {rest : List (Frame V)} (hk : s.stack = f :: rest) (hf : f.slot = none)
    (hs : s'.simulators = s.simulators)
    (hk' : s'.stack = rest ∨ ∃ g, g.slot = none ∧ s'.stack = g :: rest) : s'.Out := by
  have hn := hO.nodup
  have he := hO.empty
  have hc := hO.chain
  rw [hk] at hn he hc
  rcases hk' with hk' | ⟨g, hg, hk'⟩
  · exact ⟨by simpa [hk', hf] using hn, by simpa [hk', hf, hs] using he, hk' ▸ hc.tail⟩
  · refine ⟨by simpa [hk', hf, hg] using hn, by simpa [hk', hf, hg, hs] using he, ?_⟩
    rw [hk']
    cases rest with
    | nil => exact List.isChain_singleton _
    | cons x rest =>
      rw [List.isChain_cons_cons] at hc ⊢
      refine ⟨fun hx => ?_, hc.2⟩
      have := hc.1 hx
      rw [hf] at this
      cases this

/-- The top frame is replaced by two. -/
theorem Out.call (hO : s.Out) {f : Frame V} {rest : List (Frame V)} (hk : s.stack = f :: rest) (hf : f.slot = none)
    (hs : s'.simulators = s.simulators) {g g' : Frame V} (hg : g.slot = none) (hg' : g'.slot = none)
    (hn : g.phase = none ∨ g.phase = some .aborting) (hk' : s'.stack = g' :: g :: rest) : s'.Out := by
  have hO' : ({ s with stack := g :: rest } : SimCx V Q).Out := hO.top hk hf rfl (Or.inr ⟨g, hg, rfl⟩)
  refine hO'.push ?_ hg' hk' hs
  rintro cb len idx c r h
  cases h
  rcases hn with h | h <;> cases h

/-- A simulator is taken out. -/
theorem Out.take (hO : s.Out) {i : ℕ} {sim : SimTy} (hi : s.simulators[i]? = some (some sim)) {f : Frame V}
    (hf : f.slot = some i) {stack : List (Frame V)} (ht : taken stack = taken s.stack) (hc : stack.IsChain Above)
    (hk : s'.stack = f :: stack) (hs : s'.simulators = s.simulators.set i none) : s'.Out := by
  have hni : i ∉ taken s.stack := fun h => by
    rw [hO.empty i h] at hi
    cases hi
  have hlt : i < s.simulators.length := by
    by_contra h
    rw [List.getElem?_eq_none (not_lt.mp h)] at hi
    cases hi
  refine ⟨by simpa [hk, hf, ht] using ⟨hni, hO.nodup⟩, fun j hj => ?_, ?_⟩
  · rw [hk, taken_cons, hf, ht] at hj
    rw [hs, List.getElem?_set]
    rcases List.mem_cons.mp hj with rfl | hj
    · simp [hlt]
    · have hne : i ≠ j := fun h => hni (h ▸ hj)
      simp [hne, hO.empty j hj]
  · rw [hk]
    cases stack with
    | nil => exact List.isChain_singleton _
    | cons x rest => exact List.isChain_cons_cons.mpr ⟨fun _ => by rw [hf]; rfl, hc⟩

/-- While user code runs above the calls of a round, a simulator is out. -/
theorem Out.calling (hO : s.Out) (hn : ∀ cb len idx c rest, s.stack ≠ .sims cb len idx c :: rest) {r : Round}
    (hr : r ∈ s.rounds) {cb : Callback} {idx : List ℕ} (hp : r.phase = .calling cb idx) : taken s.stack ≠ [] := by
  have key : ∀ (stack : List (Frame V)) (cur : NodeId), stack.IsChain Above →
      (∀ cb len idx c rest, stack ≠ .sims cb len idx c :: rest) → r ∈ Refault.rounds cur stack →
          taken stack ≠ [] := by
    intro stack
    induction stack with
    | nil => intro cur _ _ h; cases h
    | cons f rest ih =>
      intro cur hch hn h
      rw [rounds_cons, List.mem_append] at h
      rw [taken_cons]
      rcases h with h | h
      · -- the frame of the round itself
        cases f <;> simp [Frame.phase] at h
        · rw [h] at hp
          cases hp
        · exact absurd rfl (hn _ _ _ _ _)
      · cases rest with
        | nil => cases h
        | cons g rest =>
          rw [List.isChain_cons_cons] at hch
          by_cases hg : ∃ cb len idx c, g = .sims cb len idx c
          · obtain ⟨i, hi⟩ := Option.isSome_iff_exists.mp (hch.1 hg)
            simp [hi]
          · have := ih _ hch.2 (by rintro cb len idx c r h; cases h; exact hg ⟨_, _, _, _, rfl⟩) h
            exact fun h => this (List.append_eq_nil_iff.mp h).2
  exact key _ _ hO.chain hn hr

variable [KeyedQueue Q Loc Instant]

theorem Next.out (h : Next s l s') (hB : s.Base) (hO : s.Out) : s'.Out := by
  have hS := hB.shape
  cases h with
  | abort id hu hc hl hp => exact hO.push hu.not_sims rfl rfl rfl
  | stop node order nd hu hc hn hrun hnd ho => exact hO.push hu.not_sims rfl rfl rfl
  | start node hu hc hrun => exact hO.push hu.not_sims rfl rfl rfl
  | createNode hu hc hf => exact hO.push hu.not_sims rfl rfl rfl
  | stopSimulation hu hc => exact hO.push hu.not_sims rfl rfl rfl
  | addSimulator ty hu hc hn hf hb =>
    refine ⟨hO.nodup, fun j hj => ?_, hO.chain⟩
    have hj' := hO.empty j hj
    have hlt : j < s.simulators.length := by
      by_contra h
      rw [List.getElem?_eq_none (not_lt.mp h)] at hj'
      cases hj'
    rw [List.getElem?_append_left hlt]
    exact hj'
  | withSimulator ty i sim hu hc hs => exact hO.take hs rfl rfl hO.chain rfl rfl
  | simsNext order cb len i idx caller rest sim hk hc hs =>
    refine hO.take hs rfl (by simp [hk, Frame.slot]) ?_ rfl rfl
    have hch := hO.chain
    rw [hk] at hch
    cases rest with
    | nil => exact List.isChain_singleton _
    | cons x rest =>
      exact List.isChain_cons_cons.mpr ⟨(List.isChain_cons_cons.mp hch).1, (List.isChain_cons_cons.mp hch).2⟩
  | putBack r i sim rest hk hc hs =>
    have hslot : ∃ f, s.stack = f :: rest ∧ f.slot = some i := by
      rcases hk with hk | hk <;> exact ⟨_, hk, rfl⟩
    obtain ⟨f, hk, hf⟩ := hslot
    have hn := hO.nodup
    have he := hO.empty
    have hch := hO.chain
    rw [hk] at hn he hch
    simp only [taken_cons, hf, Option.toList_some, List.singleton_append, List.nodup_cons] at hn
    refine ⟨hn.2, fun j hj => ?_, hch.tail⟩
    have hne : i ≠ j := fun h => hn.1 (h ▸ hj)
    rw [List.getElem?_set, if_neg hne]
    exact he j (by simp [hf, hj])
  | doneInit r rest id hk hc hrun hid hlt => exact hO.top hk rfl rfl (Or.inr ⟨_, rfl, rfl⟩)
  | doneWaker r rest hk | doneDropSim r rest hk | stopAllDone order rest hk | wakeDone order rest hk hs
  | pollKept caller rest id hk hc hr hl | doneDiscard r id post caller rest hk
  | simsDone order cb len caller rest hk hc hlen => exact hO.top hk rfl rfl (Or.inl rfl)
  | pollDropped l caller rest id r e hk hc hr hd he ha hr' hf =>
    rcases hk with ⟨hk, -⟩ | ⟨v, order, hk, -⟩ <;> exact hO.top hk rfl rfl (Or.inr ⟨_, rfl, rfl⟩)
  | exhausted order rest hk hc hq hp => exact hO.top hk rfl rfl (Or.inr ⟨_, rfl, rfl⟩)
  | stopNext order id ids caller rest e hk hc hl => exact hO.top hk rfl rfl (Or.inr ⟨_, rfl, rfl⟩)
  | stopSims order caller rest hk hc => exact hO.top hk rfl rfl (Or.inr ⟨_, rfl, rfl⟩)
  | stopAllSkip order node nodes rest nd hk hc hn hrun => exact hO.top hk rfl rfl (Or.inr ⟨_, rfl, rfl⟩)
  | taken order time rest hk hc hs => exact hO.top hk rfl rfl (Or.inr ⟨_, rfl, rfl⟩)
  | rootReady v caller rest id hk hc hr hroot hret => exact hO.call hk rfl rfl rfl rfl (Or.inl rfl) rfl
  | advance order rest loc next time hk hc hq hp ht => exact hO.call hk rfl rfl rfl rfl (Or.inl rfl) rfl
  | poll order rest id q hk hc hf hq hs hr => exact hO.call hk rfl rfl rfl rfl (Or.inl rfl) rfl
  | wakeCustom order rest loc t n q hk hp hs => exact hO.call hk rfl rfl rfl rfl (Or.inl rfl) rfl
  | stopDrop order id ids caller rest hk hc hl hp => exact hO.call hk rfl rfl rfl rfl (Or.inr rfl) rfl
  | stopAllRun order node nodes rest nd hk hc hn hrun hnd ho => exact hO.call hk rfl rfl rfl rfl (Or.inl rfl) rfl
  | destroy order rest hk hc hq => exact hO.call hk rfl rfl rfl rfl (Or.inl rfl) rfl
  | dropSim order time rest sim hk hc hs =>
    rw [hk, hc] at hS
    obtain ⟨rfl, -⟩ := hS.nested.dropSims_eq
    refine ⟨by simp [Frame.slot], by simp [Frame.slot], ?_⟩
    exact List.isChain_pair.mpr (above_of_not_sims (by simp))
  | _ => exact ⟨hO.nodup, hO.empty, hO.chain⟩

theorem Reachable.out {b : SimBuilder} (hr : Reachable b s) : s.Out := by
  refine hr.invariant (I := Out) ⟨by simp [install, Frame.slot], by simp [install, Frame.slot], ?_⟩
    fun _ _ _ hB hO h => h.out hB hO
  exact List.isChain_singleton _

/-- The slots that were empty when a round began are still to be called. -/
def Waits (s : SimCx V Q) : Prop := ∀ r ∈ s.rounds, ∀ cb idx, r.phase = .calling cb idx → ∀ i ∈ r.out, i ∈ idx

omit [KeyedQueue Q Loc Instant] in
theorem Out.lt (hO : s.Out) {i : ℕ} (hi : i ∈ taken s.stack) : i < s.simulators.length := by
  by_contra h
  have := hO.empty i hi
  rw [List.getElem?_eq_none (not_lt.mp h)] at this
  cases this

omit [KeyedQueue Q Loc Instant] in
theorem Turn.waits (h : Turn s s' l) (hO : s.Out) (hW : s.Waits) : s'.Waits := by
  have hcons : ∀ {p : Round} {o : List Round}, s'.rounds = p :: o → (∀ r ∈ o, r ∈ s.rounds) →
      (∀ cb idx, p.phase = .calling cb idx → ∀ i ∈ p.out, i ∈ idx) → s'.Waits := by
    intro p o hr ho hp r hr'
    rw [hr] at hr'
    rcases List.mem_cons.mp hr' with rfl | hr'
    · exact hp
    · exact hW r (ho r hr')
  cases h with
  | calm l h hr => exact fun r hr' => hW r (hr ▸ hr')
  | stop l n level hrun hl he hu hr => exact hcons hr (fun _ h => h) fun cb idx h => by cases h
  | start n hrun he hu hr =>
    refine hcons hr (fun _ h => h) fun cb idx h i hi => ?_
    cases h
    simpa using hO.lt hi
  | create l hf he hu hr =>
    refine hcons hr (fun _ h => h) fun cb idx h i hi => ?_
    cases h
    simpa using hO.lt hi
  | sims l n o he hr hr' =>
    refine hcons hr' (fun r h => by rw [hr]; exact List.mem_cons_of_mem _ h) fun cb idx h i hi => ?_
    cases h
    simpa using hO.lt hi
  | call l n cb i idx sim o hs he hr hr' =>
    refine hcons hr' (fun r h => by rw [hr]; exact List.mem_cons_of_mem _ h) fun cb' idx' h j hj => ?_
    cases h
    have hmem := hW ⟨n, .calling cb (i :: idx), taken s.stack⟩ (by rw [hr]; exact List.mem_cons_self) cb _ rfl j hj
    refine (List.mem_cons.mp hmem).resolve_left ?_
    rintro rfl
    rw [hO.empty j hj] at hs
    cases hs
  | finish l n cb o he hr hr' => exact fun r h => hW r (by rw [hr]; rw [hr'] at h; exact List.mem_cons_of_mem _ h)

theorem Reachable.waits {b : SimBuilder} (hr : Reachable b s) : s.Waits :=
  hr.induct (P := Waits) (fun r h => by simp [SimCx.rounds, install, Frame.phase] at h) fun _ _ _ hm hW hst =>
    ((step_next (Reachable.base hm) hst).turn (Reachable.base hm)).waits (Reachable.out hm) hW

end SimCx

end Refault
