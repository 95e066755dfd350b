import Refault.SleepPolls
import Refault.Waiting

/-!
# Refault.Timeout — `agnostic_lite`'s `Timeout`

A `Timeout<F>` polls its `Sleep` first, and the future `F` only if that is pending.  Its `Sleep` is a
`SimNodeBound`, so a poll on another node panics.  What `F` does in a poll is user code: `calls` holds the
polls of such futures that have not returned yet, innermost first, each with the control stack under which it
was made, and that part of the stack stays as it is until the poll returns (`futReturns`).
-/

namespace Refault

/-- A poll of a `Timeout`, up to that of its `Sleep`. -/
structure TimeoutPoll where
  /-- the task that polls it, with its own waker, and which of the task's polls this is -/
  by_ : Option (Id × ℕ)
  at_ : Instant
  /-- the context is borrowed: what polls is a user's waker in the waking loop, or a destructor that the
  executor runs -/
  borrowed : Bool
  /-- the `Sleep` is ready, and the poll returns `Err(Elapsed)` -/
  elapsed : Bool
deriving DecidableEq

/-- A `Timeout`, with the history of its polls and of the outputs of its future, each with the poll that
returned it and the time then. -/
structure Timeout (X : Type) where
  deadline : Instant
  /-- of the `NodeBound` -/
  node : NodeId
  polls : List TimeoutPoll
  oks : List (TimeoutPoll × Instant × X)

/-- `this.fut.poll(cx)`, which has not returned. -/
structure TimeoutCall (V : Type) where
  loc : Loc
  poll : TimeoutPoll
  base : List (Frame V)

inductive TimeoutHalt
  | sim (h : Halt)
  /-- `Instant::now() + timeout` -/
  | instantOverflow
  /-- `NodeBound::check` -/
  | nodeBound
deriving DecidableEq

inductive TimeoutLabel (V X : Type)
  | sim (l : Label V)
  /-- `Timeout::timeout` and `timeout_local` -/
  | timeout (loc : Loc) (timeout : Duration)
  /-- `Timeout::timeout_at` and `timeout_local_at` -/
  | timeoutAt (loc : Loc) (deadline : Instant)
  | poll (loc : Loc) (w : Waker)
  /-- the innermost future returns from its poll -/
  | futReturns (r : Option X)
  | drop (loc : Loc)

/-- The simulation with the `Timeout`s in it, each named by the place of its `Sleep`. -/
structure TimeoutCx (V Q X : Type) where
  sim : SimCx V Q
  timeouts : Loc → Option (Timeout X)
  calls : List (TimeoutCall V)

namespace TimeoutCx

variable {V Q X : Type} [KeyedQueue Q Loc Instant]

abbrev disabled {A : Type} : Except TimeoutHalt A := .error (.sim .disabled)

/-- A step of the simulation below. -/
def inSim {A : Type} (x : Except Halt A) : Except TimeoutHalt A := x.mapError .sim

def install (b : SimBuilder) : TimeoutCx V Q X := ⟨SimCx.install b, fun _ => none, []⟩

def userCode (s : TimeoutCx V Q X) : Bool :=
  match s.sim.stack with
  | f :: _ => f.isUser
  | [] => false

/-- A poll holds the `Timeout` by `&mut`. -/
def inCall (s : TimeoutCx V Q X) (loc : Loc) : Bool := s.calls.any fun c => c.loc = loc

/-- The `Sleep` of a `Timeout` is its own, and code does not end while a future that it polls has not returned. -/
def permits (s : TimeoutCx V Q X) : Label V → Bool
  | .user (.pollSleep loc _) | .user (.dropSleep loc) => (s.timeouts loc).isNone
  | .user (.done _) =>
    match s.calls with
    | c :: _ => s.sim.stack.length ≠ c.base.length
    | [] => true
  | _ => true

/-- `sleep_until(deadline).into()`. -/
def timeoutAt (s : TimeoutCx V Q X) (loc : Loc) (deadline : Instant) : Except TimeoutHalt (TimeoutCx V Q X) := do
  let sim ← inSim (s.sim.step (.user (.newSleep loc deadline)))
  pure { s with sim := sim, timeouts := Function.update s.timeouts loc (some
    ⟨deadline, s.sim.currentNode, [], []⟩) }

/-- `Instant + Duration`. -/
def after (t : Instant) (d : Duration) : Except TimeoutHalt Instant :=
  match t.checkedAdd d with
  | none => .error .instantOverflow
  | some t' => .ok t'

def timeout (s : TimeoutCx V Q X) (loc : Loc) (timeout : Duration) : Except TimeoutHalt (TimeoutCx V Q X) := do
  let deadline ← after (SimCx.clockGettime s.sim.time) timeout
  s.timeoutAt loc deadline

/-- Which poll of which task this is, if it is a task's poll with the task's own waker. -/
def pollOf (s : TimeoutCx V Q X) : Waker → Option (Id × ℕ)
  | .task id => if s.sim.ex.polling = some id then some (id, polls id s.sim.ex.log) else none
  | .custom _ => none

def pending (sim : SimCx V Q) (loc : Loc) : Bool :=
  match sim.ts.sleeps loc with
  | some ⟨_, .waiting _⟩ => true
  | _ => false

/-- The poll `p`: `Err(Elapsed)`, or on to the future. -/
def polled (s : TimeoutCx V Q X) (sim : SimCx V Q) (loc : Loc) (t : Timeout X) (p : TimeoutPoll) :
    TimeoutCx V Q X where
  sim := sim
  timeouts := Function.update s.timeouts loc (some { t with polls := t.polls ++ [p] })
  calls := if p.elapsed then s.calls else ⟨loc, p, s.sim.stack⟩ :: s.calls

/-- `Timeout::poll`, up to the poll of the future. -/
def poll (s : TimeoutCx V Q X) (loc : Loc) (w : Waker) : Except TimeoutHalt (TimeoutCx V Q X) :=
  match s.timeouts loc with
  | none => disabled
  | some t =>
    if s.inCall loc = true ∨ s.userCode = false then disabled
    else if s.sim.currentNode ≠ t.node then .error .nodeBound
    else do
      let sim ← inSim (s.sim.step (.user (.pollSleep loc w)))
      pure (s.polled sim loc t ⟨s.pollOf w, s.sim.ts.now, s.sim.cell ≠ .free, !pending sim loc⟩)

/-- The future's poll returns: `Ok(x)` or `Pending`. -/
def futReturns (s : TimeoutCx V Q X) (r : Option X) : Except TimeoutHalt (TimeoutCx V Q X) :=
  match s.calls with
  | [] => disabled
  | c :: calls =>
    if s.sim.stack.length = c.base.length then
      .ok { s with
        timeouts := Function.update s.timeouts c.loc ((s.timeouts c.loc).map fun t =>
          { t with oks := t.oks ++ (r.map fun x => (c.poll, s.sim.ts.now, x)).toList })
        calls := calls }
    else disabled

/-- The drop of the `Sleep`, after that of the future; `NodeBound` checks the node when its value is gone. -/
def drop (s : TimeoutCx V Q X) (loc : Loc) : Except TimeoutHalt (TimeoutCx V Q X) :=
  match s.timeouts loc with
  | none => disabled
  | some t =>
    if s.inCall loc = true then disabled
    else do
      let sim ← inSim (s.sim.step (.user (.dropSleep loc)))
      if s.sim.currentNode ≠ t.node then .error .nodeBound
      else pure { s with sim := sim, timeouts := Function.update s.timeouts loc none }

def step (s : TimeoutCx V Q X) : TimeoutLabel V X → Except TimeoutHalt (TimeoutCx V Q X)
  | .sim l =>
    if s.permits l then do
      let sim ← inSim (s.sim.step l)
      pure { s with sim := sim }
    else disabled
  | .timeout loc d => s.timeout loc d
  | .timeoutAt loc deadline => s.timeoutAt loc deadline
  | .poll loc w => s.poll loc w
  | .futReturns r => s.futReturns r
  | .drop loc => s.drop loc

def Reachable (b : SimBuilder) (s : TimeoutCx V Q X) : Prop := Machine.Steps step (install b) s

end TimeoutCx

/-! ## The simulation below -/

namespace SimCx

variable {V Q : Type} [KeyedQueue Q Loc Instant] {b : SimBuilder} {m m' : SimCx V Q} {l : Label V} {loc : Loc}
  {d : Instant}

/-- User code stays on the stack until it is done. -/
theorem Next.keeps_user (h : Next m l m') {f : Frame V} {rest : List (Frame V)} (hs : f :: rest <:+ m.stack)
    (hf : f.isUser = true) (hdone : ∀ r, l = .user (.done r) → m.stack.length ≠ (f :: rest).length) :
    f :: rest <:+ m'.stack := by
  obtain ⟨pre, hpre⟩ := hs
  cases pre with
  | cons g pre =>
    rcases h.top hpre.symm with ⟨hk, -⟩ | ⟨gs, g', hk, -, -⟩
    · exact ⟨pre, hk.symm⟩
    · exact ⟨gs ++ g' :: pre, by rw [hk]; simp⟩
  | nil =>
    have hpre : m.stack = f :: rest := hpre.symm
    have done : ∀ {r : Option V} {g : List (Frame V)}, l = .user (.done r) → f :: rest <:+ g := fun h0 =>
      absurd (by rw [hpre]) (hdone _ h0)
    have run : ∀ {g : Frame V} {gs : List (Frame V)} {k : List (Frame V)}, m.stack = g :: gs → g.isUser = false →
        f :: rest <:+ k := by
      intro g gs k hk hg
      rw [hpre] at hk
      cases hk
      rw [hf] at hg
      cases hg
    cases h with
    | skip | exec | spawn | newSleep | pollSleep | dropSleep | addSimulator => exact hpre ▸ List.suffix_refl _
    | abort | stop | start | createNode | stopSimulation | withSimulator => exact hpre ▸ List.suffix_cons _ _
    | doneInit | doneWaker | rootReady | pollKept | doneDiscard | putBack | doneDropSim => exact done rfl
    | pollDropped l caller rest' id r e hk =>
      rcases hk with ⟨-, hl, -⟩ | ⟨v, order, hk, -, -⟩
      · exact done hl
      · exact run hk rfl
    | _ => exact run (by assumption) rfl

/-- The clock does not move while user code is on the stack. -/
theorem Next.now_of_user (h : Next m l m') (hB : m.Base) {f : Frame V} {rest : List (Frame V)}
    (hs : f :: rest <:+ m.stack) (hf : f.isUser = true) : m'.ts.now = m.ts.now := by
  rcases h.clock with ⟨-, hn, -⟩ | ⟨dt, hadv⟩
  · exact hn
  · obtain ⟨rest', hk, -⟩ := hadv.stack
    have hS := hB.shape
    rw [hk] at hS
    obtain ⟨-, -, rfl⟩ := hS.loop_eq
    rw [hk] at hs
    obtain rfl : f = .loop := by simpa using hs.subset List.mem_cons_self
    cases hf

/-- Nor does it while a task is polled. -/
theorem Next.now_of_polling (h : Next m l m') (hB : m.Base) {id : Id} (hp : m.ex.polling = some id) :
    m'.ts.now = m.ts.now := by
  rcases h.clock with ⟨-, hn, -⟩ | ⟨dt, hadv⟩
  · exact hn
  · obtain ⟨rest', hk, -⟩ := hadv.stack
    have hS := hB.shape
    rw [hk] at hS
    obtain ⟨-, hr, -⟩ := hS.loop_eq
    obtain ⟨t, ht, -⟩ := Option.map_eq_some_iff.mp hp
    rw [ht] at hr
    cases hr

theorem newSleep_spec (hst : m.step (.user (.newSleep loc d)) = .ok m') :
    m.ts.sleeps loc = none ∧ m' = { m with ts := m.ts.newSleep loc d } := by
  simp only [step] at hst
  split at hst
  · cases hst
  · split_ifs at hst
    simp only [userOp] at hst
    split_ifs at hst with hs
    exact ⟨hs, (Except.ok.inj hst).symm⟩

/-- A poll of a `Sleep`: pending before the deadline, or in a borrow of the context; ready at the deadline or
after. -/
theorem pollSleep_spec (hr : Reachable b m)
    {st : TimeFutureState} (hs : m.ts.sleeps loc = some ⟨d, st⟩) {w : Waker}
    (hst : m.step (.user (.pollSleep loc w)) = .ok m') : ∃ ts, m' = { m with ts := ts } ∧ ts.now = m.ts.now ∧
      (ts.sleeps loc = some ⟨d, .waiting w⟩ ∧ (m.ts.now < d ∨ m.cell ≠ .free) ∨
        ∃ st', ts.sleeps loc = some ⟨d, st'⟩ ∧ (∀ w', st' ≠ .waiting w') ∧ d ≤ m.ts.now) := by
  have hB := hr.base
  have hI := hB.sleep
  rw [step_pollSleep_eq (by rw [hst]; simp)] at hst
  cases st with
  | init t =>
    obtain rfl := hI.init loc d t hs
    by_cases hc : m.cell = .free
    · by_cases ht : t ≤ m.ts.now
      · rw [pollSleep_init_late hs hc ht] at hst
        cases hst
        exact ⟨_, rfl, rfl, Or.inr ⟨.taken, by simp, by simp, ht⟩⟩
      · rw [pollSleep_init_early hs hc (lt_of_not_ge ht)] at hst
        cases hst
        exact ⟨_, rfl, rfl, Or.inl ⟨by simp, Or.inl (lt_of_not_ge ht)⟩⟩
    · obtain ⟨e, he⟩ := pollSleep_init_borrowed (w := w) hs hc
      rw [he] at hst
      cases hst
  | waiting w' =>
    rw [pollSleep_waiting hs] at hst
    cases hst
    refine ⟨_, rfl, rfl, Or.inl ⟨by simp, ?_⟩⟩
    by_cases hc : m.cell = .free
    · refine Or.inl (hB.settled (fun hw => ?_) loc d ((hI.due_iff loc d).mpr ⟨w', hs⟩))
      have hbor := (hB.waking_stack hw).1
      rw [hc] at hbor
      cases hbor
    · exact Or.inr hc
  | done t =>
    obtain ⟨rfl, hle⟩ := hI.done loc d t hs
    rw [pollSleep_done hs] at hst
    cases hst
    exact ⟨_, rfl, rfl, Or.inr ⟨.done t, by simp, by simp, hle⟩⟩
  | taken =>
    rw [pollSleep_taken hs] at hst
    cases hst

/-- The `k`-th poll of `id` was the last to poll the `Sleep` at `loc`, and found it pending: until the task is
polled again it dozes, and up to the end of that next poll the clock has not passed the deadline. -/
structure InTime (m : SimCx V Q) (id : Id) (k : ℕ) (loc : Loc) (d : Instant) : Prop where
  known : m.ex.state id ≠ .taskEnd
  le_polls : k ≤ polls id m.ex.log
  dozes : polls id m.ex.log = k → (m.ex.state id).live = true → m.ex.finalStopped = false → m.Dozes id loc d
  next : polls id m.ex.log ≤ k + 1 → m.ex.polling = some id → m.ts.now ≤ d

theorem InTime.step {id : Id} {k : ℕ} (hI : m.InTime id k loc d) (hr : Reachable b m) (hst : m.step l = .ok m')
    (hl : LeavesSleep loc l) : m'.InTime id k loc d := by
  have hB := hr.base
  have hn := step_next hB hst
  obtain ⟨os, hos⟩ := hn.log hB
  have hmono : polls id m.ex.log ≤ polls id m'.ex.log := by
    rw [hos, polls_append]
    exact Nat.le_add_right _ _
  refine ⟨hB.known_steps (.single hst) hI.known, hI.le_polls.trans hmono, fun hk hl' hf => ?_, fun hk hp => ?_⟩
  · have hk₀ : polls id m.ex.log = k := le_antisymm (hk ▸ hmono) hI.le_polls
    have hlive : (m.ex.state id).live = true := by
      by_contra hd
      have hdead := (hB.dead (.single hst) ⟨hI.known, by simpa using hd⟩).1.2
      rw [hl'] at hdead
      cases hdead
    have hf₀ := hn.not_stopped hB hf
    exact (hI.dozes hk₀ hlive hf₀).step hB hlive hn hl hl' (hk.trans hk₀.symm) hf₀
  · by_cases hp₀ : m.ex.polling = some id
    · rw [hn.now_of_polling hB hp₀]
      exact hI.next (hmono.trans hk) hp₀
    · -- the next poll of the task begins
      have hone : polls id m'.ex.log = polls id m.ex.log + 1 := by
        rcases hn.act hB with he | he
        · rw [he] at hp
          exact absurd hp hp₀
        · exact (he.polling_of hp).resolve_left hp₀
      have hk₀ : polls id m.ex.log = k := by
        have hle := hI.le_polls
        omega
      obtain ⟨⟨⟨rest, hk'⟩, hready⟩, -, -⟩ := hn.poll_frame hB (by rw [hone]; exact Nat.succ_ne_self _)
      have hf₀ : m.ex.finalStopped = false := by
        by_contra hf
        have hdead := hr.stopped_dead (by simpa using hf) (hr.quiescent_loop hk') id
        rw [hready] at hdead
        cases hdead
      exact (hI.dozes hk₀ (by rw [hready]; rfl) hf₀).now_le_step hB hn hf₀

end SimCx

namespace TimeoutCx

variable {V Q X : Type} [KeyedQueue Q Loc Instant] {b : SimBuilder} {s s' : TimeoutCx V Q X} {l : TimeoutLabel V X}

/-! ## The steps -/

inductive Next (s : TimeoutCx V Q X) : TimeoutLabel V X → TimeoutCx V Q X → Prop
  | sim (l : Label V) (sim : SimCx V Q) (hp : s.permits l = true) (h : s.sim.step l = .ok sim) :
      Next s (.sim l) { s with sim := sim }
  | made (l : TimeoutLabel V X) (loc : Loc) (deadline : Instant) (sim : SimCx V Q)
      (h : s.sim.step (.user (.newSleep loc deadline)) = .ok sim) :
      Next s l { s with
        sim := sim
        timeouts := Function.update s.timeouts loc (some ⟨deadline, s.sim.currentNode, [], []⟩) }
  | polled (loc : Loc) (w : Waker) (t : Timeout X) (sim : SimCx V Q) (ht : s.timeouts loc = some t)
      (hc : s.inCall loc = false) (hu : s.userCode = true) (hn : s.sim.currentNode = t.node)
      (h : s.sim.step (.user (.pollSleep loc w)) = .ok sim) :
      Next s (.poll loc w) (s.polled sim loc t ⟨s.pollOf w, s.sim.ts.now, s.sim.cell ≠ .free, !pending sim loc⟩)
  | returned (r : Option X) (c : TimeoutCall V) (calls : List (TimeoutCall V)) (hc : s.calls = c :: calls)
      (hlen : s.sim.stack.length = c.base.length) :
      Next s (.futReturns r) { s with
        timeouts := Function.update s.timeouts c.loc ((s.timeouts c.loc).map fun t =>
          { t with oks := t.oks ++ (r.map fun x => (c.poll, s.sim.ts.now, x)).toList })
        calls := calls }
  | dropped (loc : Loc) (sim : SimCx V Q) (hc : s.inCall loc = false)
      (h : s.sim.step (.user (.dropSleep loc)) = .ok sim) :
      Next s (.drop loc) { s with sim := sim, timeouts := Function.update s.timeouts loc none }

theorem inSim_bind {A B : Type} {x : Except Halt A} {f : A → Except TimeoutHalt B} {r : B} :
    (inSim x >>= f) = .ok r ↔ ∃ a, x = .ok a ∧ f a = .ok r := by
  cases x with
  | error e =>
    constructor
    · intro h
      cases h
    · rintro ⟨a, h, -⟩
      cases h
  | ok a =>
    constructor
    · exact fun h => ⟨a, rfl, h⟩
    · rintro ⟨a', h, h'⟩
      cases h
      exact h'

theorem timeoutAt_next {loc : Loc} {d : Instant} (h : s.timeoutAt loc d = .ok s') : Next s l s' := by
  unfold timeoutAt at h
  obtain ⟨sim, hst, h⟩ := inSim_bind.mp h
  rw [← Except.ok.inj h]
  exact .made l loc d sim hst

theorem timeout_next {loc : Loc} {d : Duration} (h : s.timeout loc d = .ok s') : Next s l s' := by
  obtain ⟨deadline, -, h⟩ := Except.bind_eq_ok_iff.mp h
  exact timeoutAt_next h

theorem step_next (h : s.step l = .ok s') : Next s l s' := by
  cases l with
  | sim l =>
    simp only [step] at h
    split_ifs at h with hp
    obtain ⟨sim, hst, h⟩ := inSim_bind.mp h
    cases h
    exact .sim l sim hp hst
  | timeout loc d => exact timeout_next h
  | timeoutAt loc d => exact timeoutAt_next h
  | poll loc w =>
    simp only [step, poll] at h
    split at h
    · cases h
    · rename_i t ht
      split_ifs at h with hc hn
      obtain ⟨hc, hu⟩ := not_or.mp hc
      obtain ⟨sim, hst, h⟩ := inSim_bind.mp h
      cases h
      exact .polled loc w t sim ht (by simpa using hc) (by simpa using hu) (not_not.mp hn) hst
  | futReturns r =>
    simp only [step, futReturns] at h
    split at h
    · cases h
    · rename_i c calls hc
      split_ifs at h with hlen
      cases h
      exact .returned r c calls hc hlen
  | drop loc =>
    simp only [step, drop] at h
    split at h
    · cases h
    · split_ifs at h with hc hn
      · obtain ⟨sim, -, h⟩ := inSim_bind.mp h
        cases h
      · obtain ⟨sim, hst, h⟩ := inSim_bind.mp h
        cases h
        exact .dropped loc sim (by simpa using hc) hst

/-! ## The invariant -/

/-- What is known of a `Timeout` at any time. -/
structure Timed (m : SimCx V Q) (loc : Loc) (t : Timeout X) : Prop where
  sleep : ∃ st, m.ts.sleeps loc = some ⟨t.deadline, st⟩
  polls : ∀ p ∈ t.polls, (p.elapsed = true → t.deadline ≤ p.at_) ∧
    (p.elapsed = false → p.at_ < t.deadline ∨ p.borrowed = true)
  oks : ∀ p u x, (p, u, x) ∈ t.oks → p ∈ t.polls ∧ p.elapsed = false ∧ u = p.at_
  next : ∀ pre p q post id k k', t.polls = pre ++ p :: q :: post → p.elapsed = false → p.by_ = some (id, k) →
    q.by_ = some (id, k') → k' ≤ k + 1 → q.at_ ≤ t.deadline
  last : ∀ pre p id k, t.polls = pre ++ [p] → p.elapsed = false → p.by_ = some (id, k) →
    m.InTime id k loc t.deadline

/-- A poll of a future that has not returned. -/
structure Calling (m : SimCx V Q) (c : TimeoutCall V) : Prop where
  user : ∃ f rest, c.base = f :: rest ∧ f.isUser = true
  onStack : c.base <:+ m.stack
  at_ : m.ts.now = c.poll.at_

structure Inv (b : SimBuilder) (s : TimeoutCx V Q X) : Prop where
  reach : SimCx.Reachable b s.sim
  timed : ∀ loc t, s.timeouts loc = some t → Timed s.sim loc t
  calls : ∀ c ∈ s.calls, Calling s.sim c
  nested : s.calls.Pairwise fun c c' => c'.base <:+ c.base
  called : ∀ c ∈ s.calls, ∃ t, s.timeouts c.loc = some t ∧ c.poll ∈ t.polls ∧ c.poll.elapsed = false

section Steps

variable {m m' : SimCx V Q} {loc : Loc} {t : Timeout X} {lab : Label V}

theorem Timed.step (hT : Timed m loc t) (hr : SimCx.Reachable b m) (hst : m.step lab = .ok m')
    (hl : SimCx.LeavesSleep loc lab) : Timed m' loc t where
  sleep := by
    obtain ⟨st, hs⟩ := hT.sleep
    rcases (SimCx.step_next hr.base hst).sleep_keep hr.base hl hs with h0 | ⟨w, h0, -, hs', -⟩
    · exact ⟨st, h0⟩
    · obtain ⟨hd, -⟩ := Sleep.mk.inj h0
      exact ⟨_, hd ▸ hs'⟩
  polls := hT.polls
  oks := hT.oks
  next := hT.next
  last pre p id k hp he hby := (hT.last pre p id k hp he hby).step hr hst hl

/-- Code runs above the polls that have not returned, or it is theirs and not done. -/
theorem Inv.calling_step (hI : Inv b s) (hst : s.sim.step lab = .ok m')
    (hdone : ∀ c calls r, s.calls = c :: calls → lab = .user (.done r) → s.sim.stack.length ≠ c.base.length) :
    ∀ c ∈ s.calls, Calling m' c := by
  have hn := SimCx.step_next hI.reach.base hst
  cases hcalls : s.calls with
  | nil => exact fun c hc => absurd hc List.not_mem_nil
  | cons c₀ calls =>
    have hmem : ∀ {c}, c ∈ c₀ :: calls → c ∈ s.calls := fun h => hcalls ▸ h
    -- the innermost one keeps its part of the stack, in which the others have theirs
    have h₀ := hI.calls c₀ (hmem List.mem_cons_self)
    obtain ⟨f, rest, hbase, hf⟩ := h₀.user
    have hbase₀ : c₀.base <:+ m'.stack := by
      rw [hbase]
      exact hn.keeps_user (hbase ▸ h₀.onStack) hf fun r hr => hbase ▸ hdone c₀ calls r hcalls hr
    have hnow := hn.now_of_user hI.reach.base (hbase ▸ h₀.onStack) hf
    intro c hc
    have hC := hI.calls c (hmem hc)
    refine ⟨hC.user, ?_, hnow.trans hC.at_⟩
    rcases List.mem_cons.mp hc with rfl | hc
    · exact hbase₀
    · exact ((List.pairwise_cons.mp (hcalls ▸ hI.nested)).1 c hc).trans hbase₀

/-- A poll of the `Sleep`. -/
theorem Timed.polled (hT : Timed s.sim loc t) (hr : SimCx.Reachable b s.sim) {w : Waker}
    (hst : s.sim.step (.user (.pollSleep loc w)) = .ok m') {q₀ : TimeoutPoll}
    (hq₀ : q₀ = ⟨s.pollOf w, s.sim.ts.now, s.sim.cell ≠ .free, !pending m' loc⟩) :
    Timed m' loc { t with polls := t.polls ++ [q₀] } := by
  obtain ⟨st, hs⟩ := hT.sleep
  have hr' := hr.tail hst
  obtain ⟨ts, rfl, hnow, hspec⟩ := SimCx.pollSleep_spec hr hs hst
  -- the last poll was that of a task, and so is this
  have hby : ∀ {id k'}, s.pollOf w = some (id, k') → w = .task id ∧ s.sim.ex.polling = some id ∧
      k' = Refault.polls id s.sim.ex.log := by
    intro id k' h
    cases w with
    | custom n => cases h
    | task i =>
      simp only [pollOf] at h
      split_ifs at h with hp
      cases h
      exact ⟨rfl, hp, rfl⟩
  have hnext : ∀ pre p id k k', t.polls = pre ++ [p] → p.elapsed = false → p.by_ = some (id, k) →
      s.pollOf w = some (id, k') → k' ≤ k + 1 → s.sim.ts.now ≤ t.deadline := by
    intro pre p id k k' hp he hpby hq hk
    obtain ⟨-, hpoll, rfl⟩ := hby hq
    exact (hT.last pre p id k hp he hpby).next hk hpoll
  refine ⟨?_, fun p hp => ?_, fun p u x hp => ?_, fun pre p q post id k k' hp he hpby hq hk => ?_,
    fun pre p id k hp he hpby => ?_⟩
  · rcases hspec with ⟨hs', -⟩ | ⟨st', hs', -⟩
    · exact ⟨_, hs'⟩
    · exact ⟨st', hs'⟩
  · rcases List.mem_append.mp hp with hp | hp
    · exact hT.polls p hp
    · obtain rfl := List.mem_singleton.mp hp
      rcases hspec with ⟨hs', hlt⟩ | ⟨st', hs', hst', hle⟩
      · refine ⟨fun he => ?_, fun _ => ?_⟩
        · simp [hq₀, pending, hs'] at he
        · exact hlt.imp (fun h => by simpa [hq₀] using h) fun h => by simpa [hq₀] using h
      · refine ⟨fun _ => by simpa [hq₀] using hle, fun he => ?_⟩
        cases st' with
        | waiting w' => exact absurd rfl (hst' w')
        | _ => simp [hq₀, pending, hs'] at he
  · obtain ⟨h1, h2⟩ := hT.oks p u x hp
    exact ⟨List.mem_append_left _ h1, h2⟩
  · rcases List.eq_nil_or_concat post with rfl | ⟨post', q', rfl⟩
    · obtain ⟨hpre, hq'⟩ := List.append_inj' (show t.polls ++ [q₀] = (pre ++ [p]) ++ [q] by simpa using hp) rfl
      obtain rfl := List.singleton_inj.mp hq'
      rw [hq₀] at hq ⊢
      exact hnext pre p id k k' hpre he hpby hq hk
    · have hp' : t.polls ++ [q₀] = (pre ++ p :: q :: post') ++ [q'] := by simpa using hp
      exact hT.next pre p q post' id k k' (List.append_inj' hp' rfl).1 he hpby hq hk
  · obtain ⟨-, hq⟩ := List.append_inj' hp rfl
    obtain rfl := List.singleton_inj.mp hq
    rw [hq₀] at he hpby
    obtain ⟨rfl, hpoll, rfl⟩ := hby hpby
    rcases hspec with ⟨hs', -⟩ | ⟨st', hs', hst', -⟩
    · have hle : ts.now ≤ t.deadline :=
        hr'.base.sleep.now_le loc _ ((hr'.base.sleep.due_iff loc t.deadline).mpr ⟨_, hs'⟩)
      refine ⟨fun h0 => ?_, le_rfl, fun _ _ _ => .asleep hs', fun _ _ => hle⟩
      have hst := hr.base.exec.polling_state hpoll
      have h0' : s.sim.ex.state id = .taskEnd := h0
      rw [h0'] at hst
      simp at hst
    · cases st' with
      | waiting w' => exact absurd rfl (hst' w')
      | _ => simp [pending, hs'] at he

end Steps

omit [KeyedQueue Q Loc Instant] in
theorem permits_done {c : TimeoutCall V} {calls : List (TimeoutCall V)} {r : Option V} (hc : s.calls = c :: calls)
    (h : s.permits (.user (.done r)) = true) : s.sim.stack.length ≠ c.base.length := by
  simpa [permits, hc] using h

omit [KeyedQueue Q Loc Instant] in
theorem permits_leaves {lab : Label V} {loc : Loc} {t : Timeout X} (ht : s.timeouts loc = some t)
    (h : s.permits lab = true) : SimCx.LeavesSleep loc lab := by
  unfold SimCx.LeavesSleep
  split
  · rintro rfl
    simp [permits, ht] at h
  · rintro rfl
    simp [permits, ht] at h
  · trivial

omit [KeyedQueue Q Loc Instant] in
theorem inCall_false {loc : Loc} {c : TimeoutCall V} (h : s.inCall loc = false) (hc : c ∈ s.calls) :
    c.loc ≠ loc := by
  rintro rfl
  have htrue : s.inCall c.loc = true := List.any_eq_true.mpr ⟨c, hc, by simp⟩
  rw [h] at htrue
  cases htrue

/-- The other `Timeout`s, and the polls under way, when one is touched. -/
theorem Inv.other (hI : Inv b s) {lab : Label V} {sim : SimCx V Q} (hst : s.sim.step lab = .ok sim)
    {loc loc' : Loc}
    {t : Option (Timeout X)} {t' : Timeout X} (hl : SimCx.LeavesSleep loc' lab) (hloc : loc' ≠ loc)
    (ht : Function.update s.timeouts loc t loc' = some t') : Timed sim loc' t' :=
  (hI.timed loc' t' (by simpa [hloc] using ht)).step hI.reach hst hl

theorem Inv.called_of (hI : Inv b s) {loc : Loc} {t : Option (Timeout X)} {c : TimeoutCall V} (hc : c ∈ s.calls)
    (hloc : c.loc ≠ loc) :
    ∃ t', Function.update s.timeouts loc t c.loc = some t' ∧ c.poll ∈ t'.polls ∧ c.poll.elapsed = false := by
  obtain ⟨t', ht', h⟩ := hI.called c hc
  exact ⟨t', by simpa [hloc] using ht', h⟩

theorem Inv.made (hI : Inv b s) {loc : Loc} {d : Instant} {sim : SimCx V Q}
    (hst : s.sim.step (.user (.newSleep loc d)) = .ok sim) : Inv b ({ s with
      sim := sim
      timeouts := Function.update s.timeouts loc (some ⟨d, s.sim.currentNode, [], []⟩) } : TimeoutCx V Q X) := by
  obtain ⟨hs, hsim⟩ := SimCx.newSleep_spec hst
  have hnone : s.timeouts loc = none := by
    cases ht : s.timeouts loc with
    | none => rfl
    | some t =>
      obtain ⟨st, hst'⟩ := (hI.timed loc t ht).sleep
      rw [hs] at hst'
      cases hst'
  refine ⟨hI.reach.tail hst, fun loc' t ht => ?_, hI.calling_step hst
    fun c calls r hc hlab => (by cases hlab), hI.nested, fun c hc => hI.called_of hc ?_⟩
  · by_cases hloc : loc' = loc
    · subst hloc
      obtain rfl : ⟨d, s.sim.currentNode, [], []⟩ = t := by simpa using ht
      refine ⟨⟨.init d, by simp [hsim, TimeScheduler.newSleep]⟩, fun p hp => absurd hp List.not_mem_nil,
        fun p u x hp => absurd hp List.not_mem_nil, fun pre p q post id k k' hp => by simp at hp,
        fun pre p id k hp => by simp at hp⟩
    · exact hI.other hst trivial hloc ht
  · obtain ⟨t, ht, -⟩ := hI.called c hc
    rintro rfl
    rw [hnone] at ht
    cases ht

theorem Inv.polled (hI : Inv b s) {loc : Loc} {w : Waker} {t : Timeout X} {sim : SimCx V Q}
    (ht : s.timeouts loc = some t)
    (hc : s.inCall loc = false) (hu : s.userCode = true) (hst : s.sim.step (.user (.pollSleep loc w)) = .ok sim)
    {p : TimeoutPoll} (hp : p = ⟨s.pollOf w, s.sim.ts.now, s.sim.cell ≠ .free, !pending sim loc⟩) :
    Inv b (s.polled sim loc t p) := by
  have hT := hI.timed loc t ht
  obtain ⟨st, hs⟩ := hT.sleep
  obtain ⟨ts, hsim, hnow, -⟩ := SimCx.pollSleep_spec hI.reach hs hst
  have hcalls := hI.calling_step hst fun c calls r hc hlab => (by cases hlab)
  have hcalled : ∀ c ∈ s.calls, ∃ t', Function.update s.timeouts loc
      (some { t with polls := t.polls ++ [p] }) c.loc = some t' ∧
      c.poll ∈ t'.polls ∧ c.poll.elapsed = false := fun c hc' => hI.called_of hc' (inCall_false hc hc')
  have htimed : ∀ loc' t', (s.polled sim loc t p).timeouts loc' = some t' → Timed sim loc' t' := by
    intro loc' t' ht'
    by_cases hloc : loc' = loc
    · subst hloc
      obtain rfl : { t with polls := t.polls ++ [p] } = t' := by simpa [TimeoutCx.polled] using ht'
      exact hT.polled hI.reach hst hp
    · exact hI.other hst (Ne.symm hloc) hloc ht'
  have hcallsEq : (s.polled sim loc t p).calls = if p.elapsed then s.calls else
      ⟨loc, p, s.sim.stack⟩ :: s.calls := rfl
  by_cases he : p.elapsed = true
  · rw [if_pos he] at hcallsEq
    exact ⟨hI.reach.tail hst, htimed, hcallsEq ▸ hcalls, hcallsEq ▸ hI.nested, hcallsEq ▸ hcalled⟩
  · rw [if_neg he] at hcallsEq
    -- the new call is made from the stack as it is, which holds those of all others
    have huser : ∃ f rest, s.sim.stack = f :: rest ∧ f.isUser = true := by
      unfold userCode at hu
      split at hu
      · rename_i f rest hk
        exact ⟨f, rest, hk, hu⟩
      · cases hu
    have hnew : Calling sim ⟨loc, p, s.sim.stack⟩ :=
      ⟨huser, by rw [hsim], by rw [hsim]; exact hnow.trans (by rw [hp])⟩
    refine ⟨hI.reach.tail hst, htimed, hcallsEq ▸ List.forall_mem_cons.mpr ⟨hnew, hcalls⟩,
      hcallsEq ▸ List.pairwise_cons.mpr ⟨fun c hc' => (hI.calls c hc').onStack, hI.nested⟩,
      hcallsEq ▸ List.forall_mem_cons.mpr ⟨?_, hcalled⟩⟩
    exact ⟨_, Function.update_self .., List.mem_append_right _ List.mem_cons_self, by simpa using he⟩

theorem Inv.returned (hI : Inv b s) {r : Option X} {c : TimeoutCall V} {calls : List (TimeoutCall V)}
    (hc : s.calls = c :: calls) : Inv b { s with
      timeouts := Function.update s.timeouts c.loc ((s.timeouts c.loc).map fun t =>
        { t with oks := t.oks ++ (r.map fun x => (c.poll, s.sim.ts.now, x)).toList })
      calls := calls } := by
  have hmem : ∀ {c'}, c' ∈ calls → c' ∈ s.calls := fun h => hc ▸ List.mem_cons_of_mem _ h
  have hc₀ : c ∈ s.calls := hc ▸ List.mem_cons_self
  obtain ⟨t, ht, hp, he⟩ := hI.called c hc₀
  have hT := hI.timed c.loc t ht
  refine ⟨hI.reach, fun loc t' ht' => ?_, fun c' hc' => hI.calls c' (hmem hc'),
    (List.pairwise_cons.mp (hc ▸ hI.nested)).2, fun c' hc' => ?_⟩
  · by_cases hloc : loc = c.loc
    · subst hloc
      obtain rfl : { t with oks := t.oks ++ (r.map fun x => (c.poll, s.sim.ts.now, x)).toList } = t' := by
        simpa [ht] using ht'
      refine ⟨hT.sleep, hT.polls, fun p u x hx => ?_, hT.next, hT.last⟩
      rcases List.mem_append.mp hx with hx | hx
      · exact hT.oks p u x hx
      · obtain ⟨y, -, hy⟩ := Option.map_eq_some_iff.mp (Option.mem_toList.mp hx)
        cases hy
        exact ⟨hp, he, (hI.calls c hc₀).at_⟩
    · exact hI.timed loc t' (by simpa [hloc] using ht')
  · obtain ⟨t', ht', h⟩ := hI.called c' (hmem hc')
    by_cases hloc : c'.loc = c.loc
    · rw [hloc] at ht' ⊢
      exact ⟨{ t' with oks := t'.oks ++ (r.map fun x => (c.poll, s.sim.ts.now, x)).toList }, by simp [ht'], h⟩
    · exact ⟨t', by simpa [hloc] using ht', h⟩

theorem Inv.step (hI : Inv b s) (h : Next s l s') : Inv b s' := by
  cases h with
  | sim lab sim hp hst =>
    exact ⟨hI.reach.tail hst, fun loc t ht => (hI.timed loc t ht).step hI.reach hst
      (permits_leaves (s := s) ht hp),
      hI.calling_step hst fun c calls r hc hlab => permits_done hc (hlab ▸ hp), hI.nested, hI.called⟩
  | made _ loc d sim hst => exact hI.made hst
  | polled loc w t sim ht hc hu hn hst => exact hI.polled ht hc hu hst rfl
  | returned r c calls hc hlen => exact hI.returned hc
  | dropped loc sim hc hst =>
    refine ⟨hI.reach.tail hst, fun loc' t ht => ?_, hI.calling_step hst
      fun c calls r hc hlab => (by cases hlab), hI.nested,
      fun c hc' => hI.called_of hc' (inCall_false hc hc')⟩
    by_cases hloc : loc' = loc
    · subst hloc
      simp at ht
    · exact hI.other hst (Ne.symm hloc) hloc ht

theorem inv_install : Inv b (install b : TimeoutCx V Q X) where
  reach := ⟨[], rfl⟩
  timed loc t h := by cases h
  calls c h := absurd h List.not_mem_nil
  nested := List.Pairwise.nil
  called c h := absurd h List.not_mem_nil

theorem Reachable.inv (hr : Reachable b s) : Inv b s :=
  Machine.Steps.inv (fun _ _ _ hI h => hI.step (step_next h)) hr inv_install

theorem Next.sim_step (h : Next s l s') : s'.sim = s.sim ∨ ∃ lab, s.sim.step lab = .ok s'.sim := by
  cases h with
  | sim lab sim hp hst => exact Or.inr ⟨_, hst⟩
  | made _ loc d sim hst => exact Or.inr ⟨_, hst⟩
  | polled loc w t sim ht hc hu hn hst => exact Or.inr ⟨_, hst⟩
  | returned r c calls hc hlen => exact Or.inl rfl
  | dropped loc sim hc hst => exact Or.inr ⟨_, hst⟩

/-- **A `Timeout` elapses at its deadline.**  In every run, whatever its future and all other code do: a poll
answers `Elapsed` at the deadline or later, and it polls the future only before the deadline (or where the
context is borrowed, as in a user's waker), in no time, so that is when its output is returned.  If a task
finds the `Timeout` pending in one of its polls and polls it again in that poll or the next, the clock has not
passed the deadline then, so if it is `Elapsed` it is so at the deadline exactly.  And such a poll comes: as
long as the task is live and the simulation not stopped, it is asleep, or it is ready with the clock at the
deadline, and no step takes the clock past the deadline before it is polled. -/
theorem timeout_elapses_at_its_deadline (hr : Reachable b s) {loc : Loc} {t : Timeout X}
    (ht : s.timeouts loc = some t) : (∀ p ∈ t.polls, (p.elapsed = true → t.deadline ≤ p.at_) ∧
      (p.elapsed = false → p.at_ < t.deadline ∨ p.borrowed = true)) ∧
    (∀ p u x, (p, u, x) ∈ t.oks → p ∈ t.polls ∧ p.elapsed = false ∧ u = p.at_) ∧
    (∀ pre p q post id k k', t.polls = pre ++ p :: q :: post → p.elapsed = false → p.by_ = some (id, k) →
      q.by_ = some (id, k') → k' ≤ k + 1 → q.at_ ≤ t.deadline ∧ (q.elapsed = true → q.at_ = t.deadline)) ∧
    ∀ pre p id k, t.polls = pre ++ [p] → p.elapsed = false → p.by_ = some (id, k) → polls id s.sim.ex.log = k →
      (s.sim.ex.state id).live = true → s.sim.ex.finalStopped = false → s.sim.ts.now ≤ t.deadline ∧
        (s.sim.ts.sleeps loc = some ⟨t.deadline, .waiting (.task id)⟩ ∨
          s.sim.ts.now = t.deadline ∧ s.sim.ex.state id = .ready) ∧
        ∀ l s', s.step l = .ok s' → s'.sim.ts.now ≤ t.deadline := by
  have hI := hr.inv
  have hB := hI.reach.base
  have hT := hI.timed loc t ht
  refine ⟨hT.polls, hT.oks, fun pre p q post id k k' hp he hpby hq hk => ?_,
    fun pre p id k hp he hpby hk hl hf => ?_⟩
  · have hle := hT.next pre p q post id k k' hp he hpby hq hk
    refine ⟨hle, fun hel => le_antisymm hle ((hT.polls q ?_).1 hel)⟩
    rw [hp]
    simp
  · have hD := (hT.last pre p id k hp he hpby).dozes hk hl hf
    refine ⟨hD.now_le hB, ?_, fun l s' hst => ?_⟩
    · cases hD with
      | asleep hs => exact Or.inl hs
      | woken hnow hs hready => exact Or.inr ⟨hnow, hready⟩
    · rcases (step_next hst).sim_step with h0 | ⟨lab, hlab⟩
      · rw [h0]
        exact hD.now_le hB
      · exact hD.now_le_step hB (SimCx.step_next hB hlab) hf

/-- The root task awaits a `Timeout` until five seconds after the epoch, whose future is pending. -/
def elapseRun : List (TimeoutLabel ℕ ℕ) :=
  [.sim (.user (.done none)), .sim (.run []), .timeoutAt 0 SimCx.fiveSeconds, .poll 0 (.task 1), .futReturns none,
    .sim (.user (.done none)), .sim (.run []), .sim (.run []), .sim (.run []), .sim (.run []), .poll 0 (.task 1)]

theorem timeout_elapses_at_its_deadline_pending : ∃ (s : TimeoutCx ℕ (SwapArray Loc Instant) ℕ)
    (t : Timeout ℕ) (p q : TimeoutPoll),
    Machine.run step (install SimCx.epoch) elapseRun = .ok s ∧ s.timeouts 0 = some t ∧ t.polls = [p, q] ∧
      p.elapsed = false ∧ q.elapsed = true ∧ q.at_ = t.deadline := by
  obtain ⟨s, hs, hq⟩ : ∃ s : TimeoutCx ℕ (SwapArray Loc Instant) ℕ,
      Machine.run step (install SimCx.epoch) elapseRun = .ok s ∧
      (s.timeouts 0).map
        (·.polls) = some [⟨some (1, 1), SimCx.clockGettime SimCx.epoch.simulationStartTime, false, false⟩,
        ⟨some (1, 2), SimCx.fiveSeconds, false, true⟩] := Machine.exists_of_run (by decide +kernel)
  obtain ⟨t, ht, hpolls⟩ := Option.map_eq_some_iff.mp hq
  obtain ⟨-, -, hnext, -⟩ := timeout_elapses_at_its_deadline ⟨_, hs⟩ ht
  exact ⟨s, t, _, _, hs, ht, hpolls, rfl, rfl, (hnext [] _ _ [] 1 1 2 hpolls rfl rfl rfl le_rfl).2 rfl⟩

end TimeoutCx

end Refault
